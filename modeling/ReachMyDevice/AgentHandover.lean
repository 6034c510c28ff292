import ReachMyDevice.Lib.Machine
import ReachMyDevice.VideoPlane

/-!
# What an agent is told when it takes over

The broker remembers whether to capture, and tells a new agent. Everything else is
told only to the agent that is active at the time.
-/
namespace ReachMyDevice
open Machines

/-- What a plane may ask of an agent for good. -/
structure Controls where
  capturing : Bool
  showCursor : Bool
  deriving DecidableEq, Repr

namespace Controls

/-- What an agent starts with. -/
def fresh : Controls where
  capturing := false
  showCursor := true

def tell (c : Controls) : BrokerMsg → Controls
  | .setCapturing on => { c with capturing := on }
  | .setShowCursor visible => { c with showCursor := visible }
  | _ => c

def request (c : Controls) : PlaneCmd → Controls
  | .setCapturing on => { c with capturing := on }
  | .setShowCursor visible => { c with showCursor := visible }
  | _ => c

end Controls

namespace Agent

def controls (a : Agent) : Controls where
  capturing := a.pipeline.ctl.handle.isSome
  showCursor := a.pipeline.ctl.showCursor

/-- An agent takes a message and does at once what it says, and its capture starts. -/
def told (a : Agent) (msg : BrokerMsg) : Agent := ((a.receive msg).control true).getD (a.receive msg)

theorem new_controls (displays : List DisplayInfo) (displayIndex bitrate : Nat) :
    (Agent.new displays displayIndex bitrate).controls = .fresh := rfl

theorem apply_controls (ctl : CaptureController) (cmd : CaptureCmd) :
    (apply ctl true cmd).handle.isSome =
        (match cmd with | .setCapturing on => on | _ => ctl.handle.isSome) ∧
      (apply ctl true cmd).showCursor =
        (match cmd with | .setShowCursor visible => visible | _ => ctl.showCursor) := by
  cases cmd with
  | setCapturing on =>
      cases on with
      | false => exact ⟨rfl, rfl⟩
      | true =>
          simp only [apply, CaptureController.resume]
          split
          · rename_i live
            exact ⟨live, rfl⟩
          · exact ⟨rfl, rfl⟩
  | select id =>
      simp only [apply, CaptureController.select]
      split
      · exact ⟨rfl, rfl⟩
      · split
        · exact ⟨rfl, rfl⟩
        · cases live : ctl.handle with
          | none => exact ⟨rfl, rfl⟩
          | some session => exact ⟨rfl, rfl⟩
  | setShowCursor visible =>
      simp only [apply, CaptureController.setShowCursor]
      split
      · rename_i same
        exact ⟨rfl, same⟩
      · cases live : ctl.handle with
        | none => exact ⟨rfl, rfl⟩
        | some session => exact ⟨rfl, rfl⟩

/-- An agent that does what it is told goes by the messages alone. -/
theorem told_controls {a : Agent} (idle : a.ctrl = []) (msg : BrokerMsg) :
    (a.told msg).ctrl = [] ∧ (a.told msg).controls = a.controls.tell msg := by
  have queued : ∀ cmd : CaptureCmd, a.receive msg = { a with ctrl := a.ctrl ++ [cmd] } →
      a.told msg =
        { a with pipeline := { a.pipeline with ctl := apply a.pipeline.ctl true cmd } } := by
    intro cmd received
    simp only [told, received, control, idle, List.nil_append, Option.getD_some]
  have atOnce : (a.receive msg).ctrl = [] → a.told msg = a.receive msg := by
    intro nothing
    simp only [told, control, nothing, Option.getD_none]
  cases msg with
  | setCapturing on =>
      rw [queued _ rfl]
      obtain ⟨capturing, showCursor⟩ := apply_controls a.pipeline.ctl (.setCapturing on)
      refine ⟨idle, ?_⟩
      simp only [controls, Controls.tell, capturing, showCursor]
  | selectDisplay id =>
      rw [queued _ rfl]
      obtain ⟨capturing, showCursor⟩ := apply_controls a.pipeline.ctl (.select id)
      refine ⟨idle, ?_⟩
      simp only [controls, Controls.tell, capturing, showCursor]
  | setShowCursor visible =>
      rw [queued _ rfl]
      obtain ⟨capturing, showCursor⟩ := apply_controls a.pipeline.ctl (.setShowCursor visible)
      refine ⟨idle, ?_⟩
      simp only [controls, Controls.tell, capturing, showCursor]
  | setBitrate bps =>
      rw [atOnce idle]
      exact ⟨idle, rfl⟩
  | forceKeyframe =>
      rw [atOnce idle]
      exact ⟨idle, rfl⟩

theorem foldl_told_controls {a : Agent} (idle : a.ctrl = []) (msgs : List BrokerMsg) :
    (msgs.foldl told a).controls = msgs.foldl Controls.tell a.controls := by
  induction msgs generalizing a with
  | nil => rfl
  | cons msg msgs ih =>
      obtain ⟨still, same⟩ := told_controls idle msg
      rw [List.foldl_cons, ih still, same]
      rfl

end Agent

/-- What the plane of a broker posts for a call. -/
def VideoCall.cmd : VideoCall → PlaneCmd
  | .resume => .setCapturing true
  | .pause => .setCapturing false
  | .select id => .select id
  | .setShowCursor visible => .setShowCursor visible
  | .requestKeyframe => .keyframe

/-- What the active agent is told of a command. -/
def PlaneCmd.msg : PlaneCmd → BrokerMsg
  | .setCapturing on => .setCapturing on
  | .select id => .selectDisplay id
  | .setShowCursor visible => .setShowCursor visible
  | .keyframe => .forceKeyframe

theorem Controls.tell_msg (c : Controls) (cmd : PlaneCmd) : c.tell cmd.msg = c.request cmd := by
  cases cmd <;> rfl

/-- Only a request for the cursor changes it. -/
theorem Controls.foldl_request_showCursor {cmds : List PlaneCmd} {c c' : Controls}
    (capturing : c.capturing = c'.capturing)
    (asked : c.showCursor = c'.showCursor ∨ ∃ visible, .setShowCursor visible ∈ cmds) :
    cmds.foldl Controls.request c = cmds.foldl Controls.request c' := by
  induction cmds generalizing c c' with
  | nil =>
      obtain same | ⟨visible, member⟩ := asked
      · cases c
        cases c'
        simp only at capturing same
        rw [capturing, same]
      · cases member
  | cons cmd cmds ih =>
      have later : ∀ visible, .setShowCursor visible ∈ cmd :: cmds →
          cmd = .setShowCursor visible ∨ .setShowCursor visible ∈ cmds := by
        intro visible member
        obtain same | member := List.mem_cons.mp member
        · exact .inl same.symm
        · exact .inr member
      cases cmd with
      | setShowCursor visible => exact ih capturing (.inl rfl)
      | setCapturing on =>
          refine ih rfl (asked.imp id fun ⟨visible, member⟩ => ⟨visible, ?_⟩)
          exact (later visible member).resolve_left (by simp)
      | select id =>
          refine ih capturing (asked.imp (fun same => same) fun ⟨visible, member⟩ => ⟨visible, ?_⟩)
          exact (later visible member).resolve_left (by simp)
      | keyframe =>
          refine ih capturing (asked.imp id fun ⟨visible, member⟩ => ⟨visible, ?_⟩)
          exact (later visible member).resolve_left (by simp)

theorem Controls.foldl_request_kept {cmds : List PlaneCmd} {c : Controls}
    (asked : ∀ visible, .setShowCursor visible ∉ cmds) :
    (cmds.foldl Controls.request c).showCursor = c.showCursor := by
  induction cmds generalizing c with
  | nil => rfl
  | cons cmd cmds ih =>
      rw [List.foldl_cons, ih fun visible member => asked visible (List.mem_cons_of_mem _ member)]
      cases cmd with
      | setShowCursor visible => exact absurd (List.mem_cons_self ..) (asked visible)
      | setCapturing on => rfl
      | select id => rfl
      | keyframe => rfl

/-- An agent by itself neither closes its connection nor sends itself anything. -/
theorem AgentConn.agentStep_link {c c' : AgentConn} {l : AgentLabel}
    (taken : c.agentStep l = some c') :
    c'.isOpen = c.isOpen ∧ c'.toAgent.length ≤ c.toAgent.length := by
  obtain ⟨-, turns⟩ := agentStep_cases taken
  cases turns with
  | receive queue =>
      rw [queue]
      exact ⟨rfl, Nat.le_succ _⟩
  | _ => exact ⟨rfl, Nat.le_refl _⟩

namespace Broker

/-- What is on its way to an agent. -/
def toAgent (b : Broker) (id : Nat) : List BrokerMsg := (b.conns[id]?.map (·.toAgent)).getD []

/-- What a step sends to an agent. -/
def newTo (b b' : Broker) (id : Nat) : List BrokerMsg :=
  (b'.toAgent id).drop (b.toAgent id).length

section
variable {b b' : Broker} {id other : Nat}

theorem newTo_nil (shorter : (b'.toAgent id).length ≤ (b.toAgent id).length) : b.newTo b' id = [] :=
  List.drop_eq_nil_of_le shorter

theorem newTo_same (conns : b'.conns = b.conns) : b.newTo b' id = [] := by
  refine newTo_nil (Nat.le_of_eq ?_)
  simp only [toAgent, conns]

theorem toAgent_set {c : AgentConn} (here : other < b.conns.length) :
    toAgent { b with conns := b.conns.set other c } id =
      if id = other then c.toAgent else b.toAgent id := by
  simp only [toAgent, List.getElem?_set]
  split
  · rename_i same
    rw [if_pos same.symm]
    rfl
  · rename_i ne
    rw [if_neg (Ne.symm ne)]

/-- A connection that is there, or whose end is still queued. -/
def Linked (b : Broker) (id : Nat) : Prop :=
  ∃ c, b.conns[id]? = some c ∧ (c.isOpen = true ∨ .closed id ∈ b.events)

theorem sendActive_same (b : Broker) (msgs : List BrokerMsg) :
    b.sendActive msgs = { b with conns := (b.sendActive msgs).conns } := by
  unfold sendActive sendTo
  split
  · rfl
  · split <;> rfl

@[simp] theorem sendActive_cmds (msgs : List BrokerMsg) : (b.sendActive msgs).cmds = b.cmds := by
  rw [sendActive_same]

@[simp] theorem sendActive_events (msgs : List BrokerMsg) :
    (b.sendActive msgs).events = b.events := by
  rw [sendActive_same]

@[simp] theorem sendActive_pending (msgs : List BrokerMsg) :
    (b.sendActive msgs).pending = b.pending := by
  rw [sendActive_same]

@[simp] theorem sendActive_active (msgs : List BrokerMsg) :
    (b.sendActive msgs).active = b.active := by
  rw [sendActive_same]

@[simp] theorem sendActive_capturing (msgs : List BrokerMsg) :
    (b.sendActive msgs).capturing = b.capturing := by
  rw [sendActive_same]

@[simp] theorem sendActive_length (msgs : List BrokerMsg) :
    (b.sendActive msgs).conns.length = b.conns.length := by
  unfold sendActive sendTo
  split
  · rfl
  · split
    · rfl
    · exact List.length_set ..

/-- An open connection gets what is sent to it. -/
theorem newTo_sendActive {c : AgentConn} {msgs : List BrokerMsg} (conns : b'.conns = b.conns)
    (active : b.active = some id) (here : b.conns[id]? = some c) (isOpen : c.isOpen = true) :
    b'.newTo (b.sendActive msgs) id = msgs := by
  have inside := (List.getElem?_eq_some_iff.mp here).1
  have before : b'.toAgent id = c.toAgent := by
    simp only [toAgent, conns, here, Option.map_some, Option.getD_some]
  have sent : b.sendActive msgs = { b with conns := b.conns.set id (c.send msgs) } := by
    simp only [sendActive]
    split
    · rename_i nobody
      rw [active] at nobody
      cases nobody
    · rename_i own same
      obtain rfl : id = own := Option.some.inj (active.symm.trans same)
      simp only [sendTo, here]
  rw [newTo, sent, toAgent_set inside, if_pos rfl, before, AgentConn.send, if_pos isOpen]
  exact List.drop_left

theorem newTo_sendActive_other {msgs : List BrokerMsg} (conns : b'.conns = b.conns)
    (other : b.active ≠ some id) : b'.newTo (b.sendActive msgs) id = [] := by
  have before : b'.toAgent id = b.toAgent id := by
    simp only [toAgent, conns]
  refine newTo_nil (Nat.le_of_eq ?_)
  rw [before]
  unfold sendActive
  split
  · rfl
  · rename_i own active
    rw [active, ne_eq, Option.some.injEq] at other
    unfold sendTo
    split
    · rfl
    · rename_i c here
      rw [toAgent_set (List.getElem?_eq_some_iff.mp here).1, if_neg (Ne.symm other)]

/-- What is sent arrives as a whole, or nobody is there. -/
theorem newTo_sendActive_cases (conns : b'.conns = b.conns) (msgs : List BrokerMsg) (id : Nat) :
    b'.newTo (b.sendActive msgs) id = msgs ∨ b'.newTo (b.sendActive msgs) id = [] := by
  by_cases active : b.active = some id
  · cases here : b.conns[id]? with
    | none =>
        refine .inr (newTo_nil (Nat.le_of_eq ?_))
        simp only [sendActive]
        split
        · simp only [toAgent, conns]
        · rename_i own same
          obtain rfl : id = own := Option.some.inj (active.symm.trans same)
          simp only [sendTo, here, toAgent, conns]
    | some c =>
        by_cases isOpen : c.isOpen = true
        · exact .inl (newTo_sendActive conns active here isOpen)
        · refine .inr (newTo_nil (Nat.le_of_eq ?_))
          simp only [sendActive]
          split
          · simp only [toAgent, conns]
          · rename_i own same
            obtain rfl : id = own := Option.some.inj (active.symm.trans same)
            simp only [sendTo, here, AgentConn.send, if_neg isOpen]
            rw [toAgent_set (List.getElem?_eq_some_iff.mp here).1, if_pos rfl]
            simp only [toAgent, conns, here, Option.map_some, Option.getD_some]
  · exact .inr (newTo_sendActive_other conns active)

/-- All that an agent is told when it takes over. -/
theorem newTo_onHello {monitorRect : Option MonitorRect} {displays : List DisplayDesc}
    (conns : b'.conns = b.conns) (waits : id ∈ b.pending) :
    (b.onHello id monitorRect displays).active = some id ∧
      (b'.newTo (b.onHello id monitorRect displays) id = [] ∨ b.capturing = true ∧
        b'.newTo (b.onHello id monitorRect displays) id = [.setCapturing true, .forceKeyframe]) := by
  unfold onHello
  rw [if_pos waits]
  simp only
  split
  · rename_i watched
    refine ⟨sendActive_active _, ?_⟩
    obtain told | untold := newTo_sendActive_cases (b := { b with
      pending := b.pending.filter (· ≠ id), activeId := some id, active := some id
      shared := { b.shared with displays, monitorRect }.bump }) conns
      [.setCapturing true, .forceKeyframe] id
    · exact .inr ⟨watched, told⟩
    · exact .inl untold
  · exact ⟨rfl, .inl (newTo_same conns.symm)⟩

/-- A step that neither takes a command nor makes an agent active. -/
structure Undisturbed (b b' : Broker) : Prop where
  cmds : b'.cmds = b.cmds
  capturing : b'.capturing = b.capturing
  pending : ∀ id, id ∈ b'.pending → id ∈ b.pending ∨ b.conns.length ≤ id
  active : ∀ id, b'.active = some id → b.active = some id
  grows : b.conns.length ≤ b'.conns.length
  linked : ∀ id, id ∈ b'.pending ∨ b'.active = some id → b'.Linked id
  closed : ∀ id, b'.active = some id → .closed id ∈ b.events → .closed id ∈ b'.events

theorem Linked.sendActive {msgs : List BrokerMsg} (h : b.Linked id) :
    (b.sendActive msgs).Linked id := by
  obtain ⟨c, here, link⟩ := h
  unfold Broker.sendActive
  split
  · exact ⟨c, here, link⟩
  · rename_i own active
    unfold sendTo
    split
    · exact ⟨c, here, link⟩
    · rename_i d there
      by_cases same : own = id
      · subst same
        rw [here] at there
        cases there
        refine ⟨c.send msgs, ?_, ?_⟩
        · simp only [List.getElem?_set_self' , here]
          rfl
        · unfold AgentConn.send
          split <;> exact link
      · refine ⟨c, ?_, link⟩
        simp only [List.getElem?_set_ne same]
        exact here

/-- A connection whose queue does not grow. -/
theorem newTo_set {c c' : AgentConn} (here : b.conns[other]? = some c)
    (conns : b'.conns = b.conns.set other c') (shorter : c'.toAgent.length ≤ c.toAgent.length) :
    b.newTo b' id = [] := by
  refine newTo_nil ?_
  simp only [toAgent, conns, List.getElem?_set]
  split
  · rename_i same
    subst same
    split
    · simp only [here, Option.map_some, Option.getD_some]
      exact shorter
    · exact Nat.zero_le _
  · exact Nat.le_refl _

theorem Linked.set {c c' : AgentConn} (h : b.Linked id) (here : b.conns[other]? = some c)
    (conns : b'.conns = b.conns.set other c')
    (stays : c.isOpen = true → c'.isOpen = true ∨ .closed other ∈ b'.events)
    (events : b.events ⊆ b'.events) : b'.Linked id := by
  obtain ⟨d, there, link⟩ := h
  rw [Linked, conns]
  by_cases same : other = id
  · subst same
    obtain rfl : c = d := Option.some.inj (here.symm.trans there)
    refine ⟨c', ?_, ?_⟩
    · rw [List.getElem?_set_self (List.getElem?_eq_some_iff.mp here).1]
    · obtain isOpen | queued := link
      · exact stays isOpen
      · exact .inr (events queued)
  · refine ⟨d, ?_, link.imp (fun isOpen => isOpen) fun queued => events queued⟩
    rw [List.getElem?_set_ne same]
    exact there

/-- A connection that is new is sent nothing yet. -/
theorem newTo_concat {c : AgentConn} (conns : b'.conns = b.conns ++ [c]) (fresh : c.toAgent = []) :
    b.newTo b' id = [] := by
  refine newTo_nil ?_
  simp only [toAgent, conns, List.getElem?_append]
  split
  · exact Nat.le_refl _
  · rename_i beyond
    rw [List.getElem?_eq_none (Nat.le_of_not_lt beyond)]
    cases id - b.conns.length with
    | zero =>
        rw [List.getElem?_cons_zero, Option.map_some, Option.getD_some, fresh]
        exact Nat.le_refl _
    | succ n => exact Nat.le_refl _

theorem Linked.concat {c : AgentConn} (h : b.Linked id) (conns : b'.conns = b.conns ++ [c])
    (events : b'.events = b.events) : b'.Linked id := by
  obtain ⟨d, there, link⟩ := h
  refine ⟨d, ?_, events ▸ link⟩
  rw [conns, List.getElem?_append_left (List.getElem?_eq_some_iff.mp there).1]
  exact there

end

theorem onCommand_eq (b : Broker) (cmd : PlaneCmd) (shown : Bool) :
    b.onCommand cmd = sendActive { b with capturing :=
      (Controls.request { capturing := b.capturing, showCursor := shown } cmd).capturing }
        [cmd.msg] := by
  cases cmd <;> rfl

/-- The agent that this event makes active. -/
def greets (b : Broker) : Option Nat :=
  match b.events with
  | .hello id _ _ :: _ => if id ∈ b.pending then some id else none
  | _ => none

end Broker

/-- A broker, with all that was asked of it and that each agent was sent. -/
structure BrokerRun where
  broker : Broker
  requested : Controls
  /-- A keyframe was requested since the last frame was passed on. -/
  keyframeDue : Bool
  sent : Nat → List BrokerMsg

inductive BrokerAct
  | call (c : VideoCall)
  | broker (l : BrokerLabel)

namespace BrokerRun

def start : BrokerRun where
  broker := .new
  requested := .fresh
  keyframeDue := false
  sent _ := []

def step (greeters : List Nat) (s : BrokerRun) : BrokerAct → Option BrokerRun
  | .call c => some { s with
      broker := s.broker.post c.cmd
      requested := s.requested.request c.cmd
      keyframeDue := s.keyframeDue || c.cmd == .keyframe }
  | .broker l => (s.broker.step greeters l).map fun r => {
      broker := r.1
      requested := s.requested
      keyframeDue := s.keyframeDue && r.2.isEmpty
      sent := fun id => s.sent id ++ s.broker.newTo r.1 id }

def machine (greeters : List Nat) : Machine BrokerRun BrokerAct where
  init s := s = start
  step := step greeters

/-- Once nothing is queued, the active agent has been told all that was requested. -/
def Replayed (s : BrokerRun) : Prop :=
  s.broker.cmds = [] → s.broker.events = [] → ∀ id, s.broker.active = some id →
    (s.sent id).foldl Controls.tell .fresh = s.requested ∧
      (s.keyframeDue = true → .forceKeyframe ∈ s.sent id)

/-- When an agent takes over, the cursor is to be shown or a request about it is still queued, and
a keyframe that is due is still queued or the broker knows that it captures. -/
def Retold (s : BrokerRun) : BrokerAct → Prop
  | .broker .event => s.broker.greets ≠ none →
    (s.requested.showCursor = true ∨ ∃ visible, .setShowCursor visible ∈ s.broker.cmds) ∧
      (s.keyframeDue = false ∨ s.broker.capturing = true ∨ .keyframe ∈ s.broker.cmds)
  | _ => True

/-- Every state of a run. -/
structure Recorded (s : BrokerRun) : Prop where
  known : ∃ shown, s.broker.cmds.foldl Controls.request
    { capturing := s.broker.capturing, showCursor := shown } = s.requested
  unsent : ∀ id, id ∈ s.broker.pending ∨ s.broker.conns.length ≤ id → s.sent id = []
  linked : ∀ id, id ∈ s.broker.pending ∨ s.broker.active = some id → s.broker.Linked id
  apart : ∀ id, s.broker.active = some id → id ∉ s.broker.pending
  told : ∀ id, s.broker.active = some id → .closed id ∉ s.broker.events →
    s.broker.cmds.foldl Controls.request ((s.sent id).foldl Controls.tell .fresh) = s.requested
  due : ∀ id, s.broker.active = some id → .closed id ∉ s.broker.events → s.keyframeDue = true →
    .forceKeyframe ∈ s.sent id ∨ .keyframe ∈ s.broker.cmds

section
variable {greeters : List Nat} {s s' : BrokerRun} {b : Broker} {frames : List VideoFrame}

theorem recorded_start : Recorded start := by
  refine ⟨⟨true, rfl⟩, fun _ _ => rfl, ?_, ?_, ?_, ?_⟩
  · intro id named
    obtain pending | active := named
    · cases pending
    · cases active
  · intro id active
    cases active
  · intro id active
    cases active
  · intro id active
    cases active

/-- The plane asks for something. -/
theorem Recorded.call (h : s.Recorded) (c : VideoCall) :
    Recorded { s with
      broker := s.broker.post c.cmd
      requested := s.requested.request c.cmd
      keyframeDue := s.keyframeDue || c.cmd == .keyframe } := by
  obtain ⟨shown, known⟩ := h.known
  refine ⟨⟨shown, ?_⟩, h.unsent, h.linked, h.apart, fun id active stays => ?_,
    fun id active stays due => ?_⟩
  · simp only [Broker.post, List.foldl_append, known]
    rfl
  · simp only [Broker.post, List.foldl_append, h.told id active stays]
    rfl
  · simp only [Bool.or_eq_true, beq_iff_eq] at due
    obtain due | asked := due
    · exact (h.due id active stays due).imp (fun told => told) (List.mem_append_left _)
    · exact .inr (List.mem_append_right _ (List.mem_singleton.mpr asked.symm))

/-- An undisturbed step that tells the active agent nothing that lasts. -/
theorem Recorded.frame (h : s.Recorded) {due : Bool} (undisturbed : s.broker.Undisturbed b)
    (idle : ∀ id, s.broker.active ≠ some id → s.broker.newTo b id = [])
    (silent : ∀ id c, (s.broker.newTo b id).foldl Controls.tell c = c)
    (fewer : due = true → s.keyframeDue = true) :
    Recorded {
      broker := b
      requested := s.requested
      keyframeDue := due
      sent := fun id => s.sent id ++ s.broker.newTo b id } := by
  have inside : ∀ id, s.broker.active = some id → id < s.broker.conns.length := by
    intro id active
    obtain ⟨c, here, -⟩ := h.linked id (.inr active)
    exact (List.getElem?_eq_some_iff.mp here).1
  have apart : ∀ id, b.active = some id → id ∉ b.pending := by
    intro id now member
    have before := undisturbed.active id now
    obtain old | new := undisturbed.pending id member
    · exact h.apart id before old
    · have := inside id before
      omega
  refine ⟨?_, fun id named => ?_, undisturbed.linked, apart, fun id now stays => ?_,
    fun id now stays due => ?_⟩
  · obtain ⟨shown, known⟩ := h.known
    refine ⟨shown, ?_⟩
    simp only
    rw [undisturbed.cmds, undisturbed.capturing]
    exact known
  · have before : id ∈ s.broker.pending ∨ s.broker.conns.length ≤ id := by
      obtain member | beyond := named
      · exact undisturbed.pending id member
      · exact .inr (Nat.le_trans undisturbed.grows beyond)
    have other : s.broker.active ≠ some id := by
      intro active
      obtain member | beyond := before
      · exact h.apart id active member
      · have := inside id active
        omega
    simp only
    rw [h.unsent id before, idle id other, List.append_nil]
  · simp only
    rw [List.foldl_append, silent, undisturbed.cmds]
    exact h.told id (undisturbed.active id now) fun member =>
      stays (undisturbed.closed id now member)
  · simp only
    rw [undisturbed.cmds]
    refine (h.due id (undisturbed.active id now)
      (fun member => stays (undisturbed.closed id now member)) (fewer due)).imp
      (fun told => List.mem_append_left _ told) (fun queued => queued)

/-- An undisturbed step that tells no agent anything. -/
theorem Recorded.silent (h : s.Recorded) {due : Bool} (undisturbed : s.broker.Undisturbed b)
    (nothing : ∀ id, s.broker.newTo b id = []) (fewer : due = true → s.keyframeDue = true) :
    Recorded {
      broker := b
      requested := s.requested
      keyframeDue := due
      sent := fun id => s.sent id ++ s.broker.newTo b id } := by
  refine h.frame undisturbed (fun id _ => nothing id) (fun id c => ?_) fewer
  rw [nothing]
  rfl

/-- The active agent is told of a command. -/
theorem Recorded.command (h : s.Recorded) {cmd : PlaneCmd} {rest : List PlaneCmd}
    (queue : s.broker.cmds = cmd :: rest) :
    Recorded {
      broker := Broker.onCommand { s.broker with cmds := rest } cmd
      requested := s.requested
      keyframeDue := s.keyframeDue
      sent := fun id =>
        s.sent id ++ s.broker.newTo (Broker.onCommand { s.broker with cmds := rest } cmd) id } := by
  obtain ⟨shown, known⟩ := h.known
  rw [queue, List.foldl_cons] at known
  rw [Broker.onCommand_eq _ cmd shown]
  have told : ∀ id, s.broker.active = some id → .closed id ∉ s.broker.events →
      s.broker.newTo (Broker.sendActive { s.broker with
        cmds := rest
        capturing := (Controls.request { capturing := s.broker.capturing, showCursor := shown }
          cmd).capturing } [cmd.msg]) id = [cmd.msg] := by
    intro id active stays
    obtain ⟨c, here, isOpen⟩ := h.linked id (.inr active)
    exact Broker.newTo_sendActive rfl active here (isOpen.resolve_right stays)
  refine ⟨⟨(Controls.request { capturing := s.broker.capturing, showCursor := shown } cmd).showCursor,
    ?_⟩, fun id named => ?_, fun id named => ?_, fun id active => ?_, fun id active stays => ?_,
    fun id active stays due => ?_⟩
  · simp only [Broker.sendActive_cmds, Broker.sendActive_capturing]
    exact known
  · simp only [Broker.sendActive_pending, Broker.sendActive_length] at named
    have other : s.broker.active ≠ some id := by
      intro active
      obtain member | beyond := named
      · exact h.apart id active member
      · obtain ⟨c, here, -⟩ := h.linked id (.inr active)
        have := (List.getElem?_eq_some_iff.mp here).1
        omega
    simp only
    rw [h.unsent id named, List.nil_append]
    exact Broker.newTo_sendActive_other rfl other
  · simp only [Broker.sendActive_pending, Broker.sendActive_active] at named
    obtain ⟨c, here, link⟩ := h.linked id named
    exact Broker.Linked.sendActive ⟨c, here, link⟩
  · simp only [Broker.sendActive_pending, Broker.sendActive_active] at active ⊢
    exact h.apart id active
  · simp only [Broker.sendActive_cmds, Broker.sendActive_active, Broker.sendActive_events]
      at active stays ⊢
    rw [told id active stays, List.foldl_append, ← h.told id active stays, queue]
    simp only [List.foldl_cons, List.foldl_nil, Controls.tell_msg]
  · simp only [Broker.sendActive_cmds, Broker.sendActive_active, Broker.sendActive_events]
      at active stays ⊢
    rw [told id active stays]
    have before := h.due id active stays due
    rw [queue] at before
    obtain told | queued := before
    · exact .inl (List.mem_append_left _ told)
    · obtain rfl | queued := List.mem_cons.mp queued
      · exact .inl (List.mem_append_right _ (List.mem_singleton_self _))
      · exact .inr queued

/-- Another agent becomes active, which has been told nothing before. -/
theorem Recorded.takeover (h : s.Recorded) {id : Nat} (msgs : List BrokerMsg)
    (waits : id ∈ s.broker.pending) (cmds : b.cmds = s.broker.cmds)
    (capturing : b.capturing = s.broker.capturing)
    (pending : b.pending = s.broker.pending.filter (· ≠ id)) (active : b.active = some id)
    (length : b.conns.length = s.broker.conns.length)
    (linked : ∀ other, s.broker.Linked other → b.Linked other)
    (others : ∀ other, other ≠ id → s.broker.newTo b other = [])
    (own : .closed id ∉ b.events → s.broker.newTo b id = msgs)
    (tells : msgs.foldl Controls.tell .fresh =
      { capturing := s.broker.capturing, showCursor := true })
    (cursor : s.requested.showCursor = true ∨ ∃ visible, .setShowCursor visible ∈ s.broker.cmds)
    (keyframe : s.keyframeDue = true → .forceKeyframe ∈ msgs ∨ .keyframe ∈ s.broker.cmds) :
    Recorded {
      broker := b
      requested := s.requested
      keyframeDue := s.keyframeDue
      sent := fun id => s.sent id ++ s.broker.newTo b id } := by
  obtain ⟨shown, known⟩ := h.known
  refine ⟨⟨shown, ?_⟩, fun other named => ?_, fun other named => linked other (h.linked other ?_),
    fun other now => ?_, fun other now stays => ?_, fun other now stays due => ?_⟩
  · simp only
    rw [cmds, capturing]
    exact known
  · simp only [pending, length] at named
    have ne : other ≠ id := by
      rintro rfl
      obtain member | beyond := named
      · exact absurd rfl (of_decide_eq_true (List.mem_filter.mp member).2)
      · obtain ⟨c, here, -⟩ := h.linked other (.inl waits)
        have := (List.getElem?_eq_some_iff.mp here).1
        omega
    simp only
    rw [others other ne, List.append_nil]
    exact h.unsent other (named.imp List.mem_of_mem_filter fun beyond => beyond)
  · simp only [pending, active, Option.some.injEq] at named
    obtain member | rfl := named
    · exact .inl (List.mem_of_mem_filter member)
    · exact .inl waits
  · simp only [active, Option.some.injEq] at now
    subst now
    simp only [pending]
    intro member
    exact absurd rfl (of_decide_eq_true (List.mem_filter.mp member).2)
  · simp only [active, Option.some.injEq] at now
    subst now
    simp only
    rw [own stays, h.unsent id (.inl waits), List.nil_append, tells, cmds, ← known]
    refine Controls.foldl_request_showCursor rfl ?_
    by_cases queued : ∃ visible, .setShowCursor visible ∈ s.broker.cmds
    · exact .inr queued
    · refine .inl ?_
      have kept := cursor.resolve_right queued
      rw [← known, Controls.foldl_request_kept (not_exists.mp queued)] at kept
      exact kept.symm
  · simp only [active, Option.some.injEq] at now
    subst now
    simp only
    rw [own stays, cmds]
    exact (keyframe due).imp (List.mem_append_right _) fun queued => queued

theorem Recorded.hello (h : s.Recorded) {id : Nat} {monitorRect : Option MonitorRect}
    {displays : List DisplayDesc} {rest : List AgentEvent}
    (queue : s.broker.events = .hello id monitorRect displays :: rest)
    (waits : id ∈ s.broker.pending) (ok : s.Retold (.broker .event)) :
    Recorded {
      broker := Broker.onHello { s.broker with events := rest } id monitorRect displays
      requested := s.requested
      keyframeDue := s.keyframeDue
      sent := fun other => s.sent other ++ s.broker.newTo
        (Broker.onHello { s.broker with events := rest } id monitorRect displays) other } := by
  have greets : s.broker.greets ≠ none := by
    simp only [Broker.greets, queue, if_pos waits, ne_eq, reduceCtorEq, not_false_eq_true]
  obtain ⟨cursor, keyframe⟩ := ok greets
  have linked : ∀ other, s.broker.Linked other →
      Broker.Linked { s.broker with events := rest } other := by
    rintro other ⟨c, here, link⟩
    rw [queue] at link
    exact ⟨c, here, link.imp (fun isOpen => isOpen) fun member =>
      (List.mem_cons.mp member).resolve_left (by simp)⟩
  unfold Broker.onHello
  rw [if_pos waits]
  simp only
  split
  · rename_i watched
    refine h.takeover [.setCapturing true, .forceKeyframe] waits ?_ ?_ ?_ ?_ ?_ ?_ ?_ ?_ ?_ cursor
      fun _ => .inl (List.mem_cons_of_mem _ (List.mem_singleton_self _))
    · exact Broker.sendActive_cmds _
    · exact Broker.sendActive_capturing _
    · exact Broker.sendActive_pending _
    · exact Broker.sendActive_active _
    · exact Broker.sendActive_length _
    · intro other link
      obtain ⟨c, here, link⟩ := linked other link
      exact Broker.Linked.sendActive ⟨c, here, link⟩
    · intro other ne
      refine Broker.newTo_sendActive_other rfl ?_
      simp only [ne_eq, Option.some.injEq]
      exact Ne.symm ne
    · intro stays
      rw [Broker.sendActive_events] at stays
      obtain ⟨c, here, link⟩ := linked id (h.linked id (.inl waits))
      exact Broker.newTo_sendActive rfl rfl here (link.resolve_right stays)
    · rw [watched]
      rfl
  · rename_i alone
    refine h.takeover [] waits rfl rfl rfl rfl rfl linked (fun other ne => Broker.newTo_same rfl)
      (fun _ => Broker.newTo_same rfl) ?_ cursor fun due => ?_
    · rw [Bool.eq_false_iff.mpr alone]
      rfl
    · obtain done | watched | queued := keyframe
      · rw [due] at done
        cases done
      · exact absurd watched alone
      · exact .inr queued

/-- The loop takes what a connection has reported. -/
theorem Recorded.event (h : s.Recorded) {ev : AgentEvent} {rest : List AgentEvent}
    (queue : s.broker.events = ev :: rest) (ok : s.Retold (.broker .event)) :
    Recorded {
      broker := Broker.onEvent { s.broker with events := rest } ev
      requested := s.requested
      keyframeDue := s.keyframeDue
      sent := fun id =>
        s.sent id ++ s.broker.newTo (Broker.onEvent { s.broker with events := rest } ev) id } := by
  have later : ∀ id, ev ≠ .closed id → .closed id ∈ s.broker.events → .closed id ∈ rest := by
    intro id other member
    rw [queue] at member
    exact (List.mem_cons.mp member).resolve_left (Ne.symm other)
  have linked : ∀ id, ev ≠ .closed id → s.broker.Linked id →
      Broker.Linked { s.broker with events := rest } id := by
    rintro id other ⟨c, here, link⟩
    exact ⟨c, here, link.imp (fun isOpen => isOpen) (later id other)⟩
  cases ev with
  | hello id monitorRect displays =>
      by_cases waits : id ∈ s.broker.pending
      · exact h.hello queue waits ok
      · simp only [Broker.onEvent, Broker.onHello, if_neg waits]
        exact h.silent ⟨rfl, rfl, fun _ => .inl, fun _ active => active, Nat.le_refl _,
          fun other named => linked other (by simp) (h.linked other named),
          fun other _ => later other (by simp)⟩ (fun _ => Broker.newTo_same rfl) fun due => due
  | displays id displays =>
      simp only [Broker.onEvent, Broker.onDisplays]
      split
      all_goals
        exact h.silent ⟨rfl, rfl, fun _ => .inl, fun _ active => active, Nat.le_refl _,
          fun other named => linked other (by simp) (h.linked other named),
          fun other _ => later other (by simp)⟩ (fun _ => Broker.newTo_same rfl) fun due => due
  | closed id =>
      have still : ∀ other, other ∈ s.broker.pending.filter (· ≠ id) →
          other ∈ s.broker.pending ∧ other ≠ id := by
        intro other member
        exact ⟨List.mem_of_mem_filter member, of_decide_eq_true (List.mem_filter.mp member).2⟩
      have differs : ∀ other, other ≠ id → AgentEvent.closed id ≠ .closed other := by
        intro other ne same
        cases same
        exact ne rfl
      simp only [Broker.onEvent, Broker.onClosed]
      split
      · refine h.silent ⟨rfl, rfl, fun other member => .inl (still other member).1,
          fun other active => (by cases active), Nat.le_refl _, fun other named => ?_,
          fun other active => (by cases active)⟩ (fun _ => Broker.newTo_same rfl) fun due => due
        obtain member | active := named
        · obtain ⟨pending, ne⟩ := still other member
          exact linked other (differs other ne) (h.linked other (.inl pending))
        · cases active
      · rename_i otherwise
        have apart : ∀ other, s.broker.active = some other → other ≠ id := by
          rintro other active rfl
          exact otherwise active
        refine h.silent ⟨rfl, rfl, fun other member => .inl (still other member).1,
          fun other active => active, Nat.le_refl _, fun other named => ?_,
          fun other active => later other (differs other (apart other active))⟩
          (fun _ => Broker.newTo_same rfl) fun due => due
        obtain member | active := named
        · obtain ⟨pending, ne⟩ := still other member
          exact linked other (differs other ne) (h.linked other (.inl pending))
        · exact linked other (differs other (apart other active)) (h.linked other (.inr active))

/-- A connection goes on by itself, or reports something. -/
theorem Recorded.set (h : s.Recorded) {id : Nat} {c c' : AgentConn} {due : Bool}
    (here : s.broker.conns[id]? = some c) (conns : b.conns = s.broker.conns.set id c')
    (cmds : b.cmds = s.broker.cmds) (capturing : b.capturing = s.broker.capturing)
    (pending : b.pending = s.broker.pending) (active : b.active = s.broker.active)
    (events : s.broker.events ⊆ b.events) (shorter : c'.toAgent.length ≤ c.toAgent.length)
    (stays : c.isOpen = true → c'.isOpen = true ∨ .closed id ∈ b.events)
    (fewer : due = true → s.keyframeDue = true) :
    Recorded {
      broker := b
      requested := s.requested
      keyframeDue := due
      sent := fun id => s.sent id ++ s.broker.newTo b id } := by
  refine h.silent ⟨cmds, capturing, fun other member => .inl (pending ▸ member),
    fun other now => active ▸ now, ?_, fun other named => ?_, fun other _ queued => events queued⟩
    (fun _ => Broker.newTo_set here conns shorter) fewer
  · rw [conns, List.length_set]
  · rw [pending, active] at named
    exact (h.linked other named).set here conns stays events

/-- An agent connects. -/
theorem Recorded.accept (h : s.Recorded) {c : AgentConn} (fresh : c.toAgent = [])
    (isOpen : c.isOpen = true) :
    Recorded {
      broker := { s.broker with
        conns := s.broker.conns ++ [c], pending := s.broker.conns.length :: s.broker.pending }
      requested := s.requested
      keyframeDue := s.keyframeDue
      sent := fun id => s.sent id ++ s.broker.newTo { s.broker with
        conns := s.broker.conns ++ [c]
        pending := s.broker.conns.length :: s.broker.pending } id } := by
  refine h.silent ⟨rfl, rfl, fun id member => ?_, fun _ active => active, ?_, fun id named => ?_,
    fun _ _ queued => queued⟩ (fun _ => Broker.newTo_concat rfl fresh) (fun due => due)
  · obtain rfl | member := List.mem_cons.mp member
    · exact .inr (Nat.le_refl _)
    · exact .inl member
  · simp only [List.length_append]
    omega
  · rw [List.mem_cons, or_assoc] at named
    obtain rfl | named := named
    · exact ⟨c, List.getElem?_concat_length, .inl isOpen⟩
    · exact (h.linked id named).concat rfl rfl

/-- The active agent is told a bitrate. -/
theorem Recorded.bitrate (h : s.Recorded) (bps : Nat) :
    Recorded {
      broker := s.broker.sendActive [.setBitrate bps]
      requested := s.requested
      keyframeDue := s.keyframeDue
      sent := fun id => s.sent id ++ s.broker.newTo (s.broker.sendActive [.setBitrate bps]) id } := by
  refine h.frame ⟨Broker.sendActive_cmds _, Broker.sendActive_capturing _,
    fun id member => .inl ?_, fun id active => ?_, ?_, fun id named => ?_, fun id _ queued => ?_⟩
    (fun id other => Broker.newTo_sendActive_other rfl other) (fun id c => ?_) (fun due => due)
  · rw [Broker.sendActive_pending] at member
    exact member
  · rw [Broker.sendActive_active] at active
    exact active
  · rw [Broker.sendActive_length]
  · rw [Broker.sendActive_pending, Broker.sendActive_active] at named
    exact (h.linked id named).sendActive
  · rw [Broker.sendActive_events]
    exact queued
  · obtain sent | sent := Broker.newTo_sendActive_cases rfl [.setBitrate bps] id
    · rw [sent]
      rfl
    · rw [sent]
      rfl

theorem Recorded.same (h : s.Recorded) : Recorded { s with
    sent := fun id => s.sent id ++ s.broker.newTo s.broker id } :=
  h.silent ⟨rfl, rfl, fun _ => .inl, fun _ active => active, Nat.le_refl _, h.linked,
    fun _ _ queued => queued⟩ (fun _ => Broker.newTo_same rfl) (fun due => due)

theorem Recorded.step (h : s.Recorded) {l : BrokerAct} (ok : s.Retold l)
    (stepped : s.step greeters l = some s') : s'.Recorded := by
  cases l with
  | call c =>
      cases stepped
      exact h.call c
  | broker l =>
      obtain ⟨⟨b, frames⟩, taken, rfl⟩ := Option.map_eq_some_iff.mp stepped
      have fewer : (s.keyframeDue && frames.isEmpty) = true → s.keyframeDue = true :=
        fun due => (Bool.and_eq_true_iff.mp due).1
      have found := Broker.step_cases taken
      cases found with
      | accepted =>
          simp only [List.isEmpty_nil, Bool.and_true]
          exact h.accept rfl rfl
      | refused | skipped =>
          simp only [List.isEmpty_nil, Bool.and_true]
          exact h.same
      | event queue =>
          simp only [List.isEmpty_nil, Bool.and_true]
          exact h.event queue ok
      | command queue =>
          simp only [List.isEmpty_nil, Bool.and_true]
          exact h.command queue
      | @ticked bps =>
          simp only [List.isEmpty_nil, Bool.and_true]
          exact h.bitrate bps
      | hello here isOpen | displays here isOpen =>
          exact h.set here rfl rfl rfl rfl rfl (List.subset_append_left ..) (Nat.le_refl _) .inl fewer
      | video here isOpen =>
          exact h.set here rfl rfl rfl rfl rfl (List.Subset.refl _) (Nat.le_refl _) .inl fewer
      | failed here isOpen =>
          refine h.set here rfl rfl rfl rfl rfl (List.subset_append_left ..) (Nat.le_refl _)
            (fun _ => .inr ?_) fewer
          exact List.mem_append_right _ (List.mem_singleton_self _)
      | turned here turned =>
          obtain ⟨isOpen, shorter⟩ := AgentConn.agentStep_link turned
          exact h.set here rfl rfl rfl rfl rfl (List.Subset.refl _) shorter
            (fun before => .inl (isOpen.trans before)) fewer

theorem recorded (run : (machine greeters).ReachableBy Retold s) : s.Recorded := by
  refine run.invariant (fun s first => ?_) (fun s l s' h ok stepped => h.step ok stepped)
  cases first
  exact recorded_start

theorem Recorded.replayed (h : s.Recorded) : s.Replayed := by
  intro cmds events id active
  have stays : .closed id ∉ s.broker.events := by
    rw [events]
    exact List.not_mem_nil
  constructor
  · have told := h.told id active stays
    rw [cmds] at told
    exact told
  · intro due
    refine (h.due id active stays due).resolve_right ?_
    rw [cmds]
    exact List.not_mem_nil

/-- What a handover forgets is missing afterwards, unless it is still queued. -/
theorem Recorded.forgets (h : s.Recorded) (greets : s.broker.greets ≠ none)
    (stepped : s.step greeters (.broker .event) = some s') (cmds : s'.broker.cmds = [])
    (events : s'.broker.events = []) (replayed : s'.Replayed) : s.Retold (.broker .event) := by
  intro _
  obtain ⟨⟨b, frames⟩, taken, rfl⟩ := Option.map_eq_some_iff.mp stepped
  simp only [Broker.greets] at greets
  split at greets
  · rename_i id monitorRect displays rest queue
    have waits : id ∈ s.broker.pending := by
      by_contra other
      exact greets (if_neg other)
    simp only [Broker.step, queue, Broker.onEvent] at taken
    cases taken
    have sent : (Broker.onHello { s.broker with events := rest } id monitorRect displays).active =
        some id ∧ (s.broker.newTo
          (Broker.onHello { s.broker with events := rest } id monitorRect displays) id = [] ∨
        s.broker.capturing = true ∧ s.broker.newTo
          (Broker.onHello { s.broker with events := rest } id monitorRect displays) id =
            [.setCapturing true, .forceKeyframe]) := Broker.newTo_onHello rfl waits
    dsimp only at sent
    obtain ⟨active, sent⟩ := sent
    obtain ⟨told, due⟩ := replayed cmds events id active
    simp only [h.unsent id (.inl waits), List.nil_append] at told due
    obtain untold | ⟨watched, sent⟩ := sent
    · rw [untold] at told due
      refine ⟨.inl ?_, .inl ?_⟩
      · rw [← told]
        rfl
      · refine Bool.eq_false_iff.mpr fun asked => List.not_mem_nil (due ?_)
        rw [asked]
        rfl
    · rw [sent] at told
      refine ⟨.inl ?_, .inr (.inl watched)⟩
      rw [← told]
      rfl
  · exact absurd rfl greets

/-- The active agent, once it has done what it was sent, captures and shows the cursor as was
requested last. -/
theorem Recorded.agent_controls (h : s.Recorded) (cmds : s.broker.cmds = [])
    (events : s.broker.events = []) {id : Nat} (active : s.broker.active = some id)
    (displays : List DisplayInfo) (displayIndex bitrate : Nat) :
    ((s.sent id).foldl Agent.told (.new displays displayIndex bitrate)).controls = s.requested := by
  rw [Agent.foldl_told_controls rfl, Agent.new_controls]
  exact (h.replayed cmds events id active).1

end

/-- In a run in which no handover forgets anything, the active agent has been told everything. One
after which nothing is queued forgets something just when it does not meet the condition. -/
theorem desired_state_replayed (greeters : List Nat) {s : BrokerRun}
    (run : (machine greeters).ReachableBy Retold s) :
    s.Replayed ∧ ∀ s', s.broker.greets ≠ none → s.step greeters (.broker .event) = some s' →
      s'.broker.cmds = [] → s'.broker.events = [] → (s'.Replayed ↔ s.Retold (.broker .event)) := by
  have h := recorded run
  refine ⟨h.replayed, fun s' greets stepped cmds events => ?_⟩
  constructor
  · exact h.forgets greets stepped cmds events
  · intro ok
    exact (h.step ok stepped).replayed

instance (s : BrokerRun) : ∀ l, Decidable (s.Retold l)
  | .broker .event => inferInstanceAs (Decidable (_ → _))
  | .call _ | .broker (.accept ..) | .broker .command | .broker (.bitrateTick _)
  | .broker (.read _) | .broker (.readError _) | .broker (.agent ..) => .isTrue trivial

/-- An agent connects and takes over. -/
def takesOver (id : Nat) : List BrokerAct :=
  [.broker (.accept 1000 [] 0 8000000 none), .broker (.read id), .broker .event]

/-- A viewer that draws the cursor itself connects, and asks again while another agent takes over. -/
theorem desired_state_replayed_asked : ∃ s, (machine []).ReachableBy Retold s ∧
    s.broker.active = some 1 ∧ s.requested = { capturing := true, showCursor := false } ∧
      (s.sent 1).foldl Controls.tell .fresh = s.requested := by
  obtain ⟨s, run, cmds, events, active, requested⟩ := (machine []).exists_reachableBy Retold rfl
    (takesOver 0 ++ [.call (.setShowCursor false), .call .resume, .broker .command,
      .broker .command, .call (.setShowCursor false)] ++ takesOver 1 ++ [.broker .command])
    (fun s => s.broker.cmds = [] ∧ s.broker.events = [] ∧ s.broker.active = some 1 ∧
      s.requested = { capturing := true, showCursor := false }) (by decide)
  exact ⟨s, run, active, requested, ((desired_state_replayed [] run).1 cmds events 1 active).1⟩

/-- A viewer that draws the cursor itself gets it twice after a handover. -/
theorem cursor_not_replayed : ∃ s, (machine []).Reachable s ∧ ¬ s.Replayed := by
  obtain ⟨s, run, cmds, events, active, differs⟩ := (machine []).exists_reachableBy Machine.Always rfl
    (takesOver 0 ++ [.call (.setShowCursor false), .call .resume, .broker .command,
      .broker .command] ++ takesOver 1)
    (fun s => s.broker.cmds = [] ∧ s.broker.events = [] ∧ s.broker.active = some 1 ∧
      (s.sent 1).foldl Controls.tell .fresh ≠ s.requested) (by decide)
  exact ⟨s, run, fun replayed => differs (replayed cmds events 1 active).1⟩

end BrokerRun
end ReachMyDevice
