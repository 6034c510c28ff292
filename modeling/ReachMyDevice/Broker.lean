import ReachMyDevice.Capture

/-!
# The broker and its capture agents

The broker takes commands from the host session and events from its agent
connections. Each agent captures one graphical session, and its frames are passed
on while it is the active one.
-/
namespace ReachMyDevice

abbrev DisplayDesc := DisplayDescriptor

inductive AgentMsg
  | hello (monitorRect : Option MonitorRect) (displays : List DisplayDesc)
  | video (frame : VideoFrame)
  | displays (displays : List DisplayDesc)
  deriving DecidableEq, Repr

inductive BrokerMsg
  | setCapturing (on : Bool)
  | setBitrate (bps : Nat)
  | forceKeyframe
  | selectDisplay (id : Nat)
  | setShowCursor (visible : Bool)
  deriving DecidableEq, Repr

/-! ## An agent -/

inductive CaptureCmd
  | setCapturing (on : Bool)
  | select (id : Nat)
  | setShowCursor (visible : Bool)
  deriving DecidableEq, Repr

/-- `ctrl` is the queue of the thread that owns the controller. -/
structure Agent where
  pipeline : Pipeline
  ctrl : List CaptureCmd
  bitrate : Nat
  deriving DecidableEq, Repr

namespace Agent

def new (displays : List DisplayInfo) (displayIndex bitrate : Nat) : Agent where
  pipeline := .new (.start displays displayIndex)
  ctrl := []
  bitrate := bitrate

/-- The reader loop takes a message of the broker. -/
def receive (a : Agent) : BrokerMsg → Agent
  | .setCapturing on => { a with ctrl := a.ctrl ++ [.setCapturing on] }
  | .setBitrate bps => { a with bitrate := bps }
  | .forceKeyframe =>
    { a with pipeline := { a.pipeline with ctl := { a.pipeline.ctl with forceKeyframe := true } } }
  | .selectDisplay id => { a with ctrl := a.ctrl ++ [.select id] }
  | .setShowCursor visible => { a with ctrl := a.ctrl ++ [.setShowCursor visible] }

/-- The capture thread handles a command; to start it tries several times, and `started`
tells how that ends. -/
def apply (ctl : CaptureController) (started : Bool) : CaptureCmd → CaptureController
  | .setCapturing true => ctl.resume started
  | .setCapturing false => ctl.pause
  | .select id => ctl.select id started
  | .setShowCursor visible => ctl.setShowCursor visible started

def control (a : Agent) (started : Bool) : Option Agent :=
  match a.ctrl with
  | [] => none
  | cmd :: rest =>
    some { a with pipeline := { a.pipeline with ctl := apply a.pipeline.ctl started cmd },
                  ctrl := rest }

theorem control_cases {a a' : Agent} {started : Bool} (taken : a.control started = some a') :
    ∃ cmd rest, a.ctrl = cmd :: rest ∧ a' = { a with
      pipeline := { a.pipeline with ctl := apply a.pipeline.ctl started cmd }, ctrl := rest } := by
  unfold control at taken
  split at taken
  next => cases taken
  next cmd rest queue => exact ⟨cmd, rest, queue, (Option.some.inj taken).symm⟩

end Agent

/-! ## A connection to an agent -/

/-- `toAgent` and `toBroker` are what is on its way, in the channels and in the socket. -/
structure AgentConn where
  agent : Agent
  running : Bool
  isOpen : Bool
  toAgent : List BrokerMsg
  toBroker : List AgentMsg
  deriving DecidableEq, Repr

inductive AgentLabel
  | receive
  | control (started : Bool)
  | pipeline (l : PipelineLabel)
  /-- No agent of this version announces a change of its displays. -/
  | hotplug (displays : List DisplayDesc)
  /-- The agent ends; the first `written` messages still arrive. -/
  | stop (written : Nat)

namespace AgentConn

/-- An agent has connected and greets. -/
def accepted (displays : List DisplayInfo) (displayIndex bitrate : Nat)
    (monitorRect : Option MonitorRect) : AgentConn :=
  let agent := Agent.new displays displayIndex bitrate
  { agent, running := true, isOpen := true, toAgent := []
    toBroker := [.hello monitorRect agent.pipeline.ctl.descriptors] }

/-- Sending over a closed connection is no error. -/
def send (c : AgentConn) (msgs : List BrokerMsg) : AgentConn :=
  if c.isOpen then { c with toAgent := c.toAgent ++ msgs } else c

/-- One turn of the agent process. It has no zoom, and nobody's authorization to check. -/
def agentStep (c : AgentConn) (l : AgentLabel) : Option AgentConn :=
  if c.running then
    match l with
    | .receive =>
      match c.toAgent with
      | [] => none
      | msg :: rest => some { c with agent := c.agent.receive msg, toAgent := rest }
    | .control started => (c.agent.control started).map fun agent => { c with agent }
    | .pipeline l => (c.agent.pipeline.step true .full l).map fun r =>
      { c with agent := { c.agent with pipeline := r.1 },
               toBroker := c.toBroker ++ r.2.map .video }
    | .hotplug displays => some { c with toBroker := c.toBroker ++ [.displays displays] }
    | .stop written =>
      let ctl := { c.agent.pipeline.ctl with handle := none, ending := 0 }
      some { c with running := false, toBroker := c.toBroker.take written
                    agent := { c.agent with pipeline := .new ctl } }
  else none

/-- What a turn found, and what it does. -/
inductive Turns (c : AgentConn) : AgentLabel → AgentConn → Prop
  | receive {msg : BrokerMsg} {rest : List BrokerMsg} (queue : c.toAgent = msg :: rest) :
      Turns c .receive { c with agent := c.agent.receive msg, toAgent := rest }
  | control {started : Bool} {cmd : CaptureCmd} {rest : List CaptureCmd}
      (queue : c.agent.ctrl = cmd :: rest) :
      Turns c (.control started) { c with agent := { c.agent with
        pipeline := { c.agent.pipeline with
          ctl := Agent.apply c.agent.pipeline.ctl started cmd }
        ctrl := rest } }
  | pipeline {l : PipelineLabel} {r : Pipeline × List VideoFrame}
      (stepped : c.agent.pipeline.step true .full l = some r) :
      Turns c (.pipeline l) { c with
        agent := { c.agent with pipeline := r.1 }
        toBroker := c.toBroker ++ r.2.map .video }
  | hotplug {displays : List DisplayDesc} :
      Turns c (.hotplug displays) { c with toBroker := c.toBroker ++ [.displays displays] }
  | stop {written : Nat} :
      Turns c (.stop written) { c with
        running := false
        toBroker := c.toBroker.take written
        agent := { c.agent with pipeline := .new { c.agent.pipeline.ctl with
          handle := none, ending := 0 } } }

theorem agentStep_cases {c c' : AgentConn} {l : AgentLabel} (taken : c.agentStep l = some c') :
    c.running = true ∧ Turns c l c' := by
  obtain ⟨running, taken⟩ := Option.ite_none_right_eq_some.mp taken
  refine ⟨running, ?_⟩
  cases l with
  | receive =>
      simp only at taken
      split at taken
      next => cases taken
      next queue =>
        cases taken
        exact .receive queue
  | control started =>
      obtain ⟨agent, controlled, rfl⟩ := Option.map_eq_some_iff.mp taken
      obtain ⟨cmd, rest, queue, rfl⟩ := Agent.control_cases controlled
      exact .control queue
  | pipeline l =>
      obtain ⟨r, stepped, rfl⟩ := Option.map_eq_some_iff.mp taken
      exact .pipeline stepped
  | hotplug displays =>
      cases taken
      exact .hotplug
  | stop written =>
      cases taken
      exact .stop

end AgentConn

/-! ## The broker loop -/

inductive PlaneCmd
  | setCapturing (on : Bool)
  | select (id : Nat)
  | setShowCursor (visible : Bool)
  | keyframe
  deriving DecidableEq, Repr

inductive AgentEvent
  | hello (id : Nat) (monitorRect : Option MonitorRect) (displays : List DisplayDesc)
  | displays (id : Nat) (displays : List DisplayDesc)
  | closed (id : Nat)
  deriving DecidableEq, Repr

structure BrokerShared where
  displays : List DisplayDesc
  monitorRect : Option MonitorRect
  geometryGen : Nat
  deriving DecidableEq, Repr

def BrokerShared.bump (s : BrokerShared) : BrokerShared :=
  { s with geometryGen := (s.geometryGen + 1) % 2 ^ 64 }

/-- `conns` holds every agent that was ever accepted, at its id. An `activeId` of `none` is
the source's `NO_AGENT`. -/
structure Broker where
  activeId : Option Nat
  active : Option Nat
  pending : List Nat
  capturing : Bool
  cmds : List PlaneCmd
  events : List AgentEvent
  conns : List AgentConn
  shared : BrokerShared
  lastGeometryGen : Nat
  deriving DecidableEq, Repr

inductive BrokerLabel
  /-- An agent of a user connects. -/
  | accept (uid : Nat) (displays : List DisplayInfo) (displayIndex bitrate : Nat)
      (monitorRect : Option MonitorRect)
  | event
  | command
  | bitrateTick (bps : Nat)
  /-- A connection's reader takes a message. -/
  | read (id : Nat)
  /-- It finds the end of the stream or an error. -/
  | readError (id : Nat)
  | agent (id : Nat) (l : AgentLabel)

/-- Root, regular users and the greeters of the display managers. -/
def permits (greeters : List Nat) (uid : Nat) : Bool :=
  uid == 0 || 1000 ≤ uid || greeters.contains uid

namespace Broker

def new : Broker where
  activeId := none
  active := none
  pending := []
  capturing := false
  cmds := []
  events := []
  conns := []
  shared := { displays := [], monitorRect := none, geometryGen := 0 }
  lastGeometryGen := 0

def post (b : Broker) (cmd : PlaneCmd) : Broker := { b with cmds := b.cmds ++ [cmd] }

def sendTo (b : Broker) (id : Nat) (msgs : List BrokerMsg) : Broker :=
  match b.conns[id]? with
  | none => b
  | some c => { b with conns := b.conns.set id (c.send msgs) }

def sendActive (b : Broker) (msgs : List BrokerMsg) : Broker :=
  match b.active with
  | none => b
  | some id => b.sendTo id msgs

/-- The newest agent becomes the active one; an agent that greets again is ignored. -/
def onHello (b : Broker) (id : Nat) (monitorRect : Option MonitorRect)
    (displays : List DisplayDesc) : Broker :=
  if id ∈ b.pending then
    let b := { b with
      pending := b.pending.filter (· ≠ id), activeId := some id, active := some id
      shared := { b.shared with displays, monitorRect }.bump }
    if b.capturing then b.sendActive [.setCapturing true, .forceKeyframe] else b
  else b

def onDisplays (b : Broker) (id : Nat) (displays : List DisplayDesc) : Broker :=
  if b.activeId = some id then { b with shared := { b.shared with displays } } else b

def onClosed (b : Broker) (id : Nat) : Broker :=
  let b := { b with pending := b.pending.filter (· ≠ id) }
  if b.active = some id then
    { b with active := none, activeId := none, shared := { b.shared with displays := [] }.bump }
  else b

def onEvent (b : Broker) : AgentEvent → Broker
  | .hello id monitorRect displays => b.onHello id monitorRect displays
  | .displays id displays => b.onDisplays id displays
  | .closed id => b.onClosed id

def onCommand (b : Broker) : PlaneCmd → Broker
  | .setCapturing on => { b with capturing := on }.sendActive [.setCapturing on]
  | .select id => b.sendActive [.selectDisplay id]
  | .setShowCursor visible => b.sendActive [.setShowCursor visible]
  | .keyframe => b.sendActive [.forceKeyframe]

/-- What a connection's reader makes of a message: an event for the loop, or a frame if the
agent is the active one. -/
def onMessage (b : Broker) (id : Nat) : AgentMsg → Broker × List VideoFrame
  | .hello monitorRect displays =>
    ({ b with events := b.events ++ [.hello id monitorRect displays] }, [])
  | .displays displays => ({ b with events := b.events ++ [.displays id displays] }, [])
  | .video frame => (b, if b.activeId = some id then [frame] else [])

def step (greeters : List Nat) (b : Broker) : BrokerLabel → Option (Broker × List VideoFrame)
  | .accept uid displays displayIndex bitrate monitorRect =>
    if permits greeters uid then
      some ({ b with
        conns := b.conns ++ [.accepted displays displayIndex bitrate monitorRect]
        pending := b.conns.length :: b.pending }, [])
    else some (b, [])
  | .event =>
    match b.events with
    | [] => none
    | ev :: rest => some ({ b with events := rest }.onEvent ev, [])
  | .command =>
    match b.cmds with
    | [] => none
    | cmd :: rest => some ({ b with cmds := rest }.onCommand cmd, [])
  | .bitrateTick bps => some (if b.capturing then b.sendActive [.setBitrate bps] else b, [])
  | .read id =>
    match b.conns[id]? with
    | none => none
    | some c =>
      match c.isOpen, c.toBroker with
      | true, msg :: rest =>
        some ({ b with conns := b.conns.set id { c with toBroker := rest } }.onMessage id msg)
      | _, _ => none
  | .readError id =>
    match b.conns[id]? with
    | none => none
    | some c =>
      if c.isOpen then
        some ({ b with conns := b.conns.set id { c with isOpen := false },
                       events := b.events ++ [.closed id] }, [])
      else none
  | .agent id l =>
    match b.conns[id]? with
    | none => none
    | some c => (c.agentStep l).map fun c => ({ b with conns := b.conns.set id c }, [])

/-- What each step found, and what it does. -/
inductive Steps (greeters : List Nat) (b : Broker) :
    BrokerLabel → Broker → List VideoFrame → Prop
  | accepted {uid : Nat} {displays : List DisplayInfo} {displayIndex bitrate : Nat}
      {monitorRect : Option MonitorRect} (permitted : permits greeters uid = true) :
      Steps greeters b (.accept uid displays displayIndex bitrate monitorRect) { b with
        conns := b.conns ++ [.accepted displays displayIndex bitrate monitorRect]
        pending := b.conns.length :: b.pending } []
  | refused {uid : Nat} {displays : List DisplayInfo} {displayIndex bitrate : Nat}
      {monitorRect : Option MonitorRect} (refused : ¬ permits greeters uid = true) :
      Steps greeters b (.accept uid displays displayIndex bitrate monitorRect) b []
  | event {ev : AgentEvent} {rest : List AgentEvent} (queue : b.events = ev :: rest) :
      Steps greeters b .event (onEvent { b with events := rest } ev) []
  | command {cmd : PlaneCmd} {rest : List PlaneCmd} (queue : b.cmds = cmd :: rest) :
      Steps greeters b .command (onCommand { b with cmds := rest } cmd) []
  | ticked {bps : Nat} (capturing : b.capturing = true) :
      Steps greeters b (.bitrateTick bps) (b.sendActive [.setBitrate bps]) []
  | skipped {bps : Nat} (idle : ¬ b.capturing = true) : Steps greeters b (.bitrateTick bps) b []
  | hello {id : Nat} {c : AgentConn} {monitorRect : Option MonitorRect}
      {displays : List DisplayDesc} {rest : List AgentMsg} (here : b.conns[id]? = some c)
      (isOpen : c.isOpen = true) (queue : c.toBroker = .hello monitorRect displays :: rest) :
      Steps greeters b (.read id) { b with
        conns := b.conns.set id { c with toBroker := rest }
        events := b.events ++ [.hello id monitorRect displays] } []
  | displays {id : Nat} {c : AgentConn} {displays : List DisplayDesc} {rest : List AgentMsg}
      (here : b.conns[id]? = some c) (isOpen : c.isOpen = true)
      (queue : c.toBroker = .displays displays :: rest) :
      Steps greeters b (.read id) { b with
        conns := b.conns.set id { c with toBroker := rest }
        events := b.events ++ [.displays id displays] } []
  | video {id : Nat} {c : AgentConn} {frame : VideoFrame} {rest : List AgentMsg}
      (here : b.conns[id]? = some c) (isOpen : c.isOpen = true)
      (queue : c.toBroker = .video frame :: rest) :
      Steps greeters b (.read id) { b with conns := b.conns.set id { c with toBroker := rest } }
        (if b.activeId = some id then [frame] else [])
  | failed {id : Nat} {c : AgentConn} (here : b.conns[id]? = some c) (isOpen : c.isOpen = true) :
      Steps greeters b (.readError id) { b with
        conns := b.conns.set id { c with isOpen := false }
        events := b.events ++ [.closed id] } []
  | turned {id : Nat} {l : AgentLabel} {c c' : AgentConn} (here : b.conns[id]? = some c)
      (turned : c.agentStep l = some c') :
      Steps greeters b (.agent id l) { b with conns := b.conns.set id c' } []

theorem step_cases {greeters : List Nat} {b b' : Broker} {l : BrokerLabel}
    {frames : List VideoFrame} (taken : b.step greeters l = some (b', frames)) :
    Steps greeters b l b' frames := by
  cases l with
  | accept uid displays displayIndex bitrate monitorRect =>
      simp only [step] at taken
      split at taken
      next permitted =>
        cases taken
        exact .accepted permitted
      next refused =>
        cases taken
        exact .refused refused
  | event =>
      simp only [step] at taken
      split at taken
      next => cases taken
      next queue =>
        cases taken
        exact .event queue
  | command =>
      simp only [step] at taken
      split at taken
      next => cases taken
      next queue =>
        cases taken
        exact .command queue
  | bitrateTick bps =>
      cases taken
      split
      next capturing => exact .ticked capturing
      next idle => exact .skipped idle
  | read id =>
      simp only [step] at taken
      split at taken
      next => cases taken
      next c here =>
        split at taken
        next msg rest isOpen queue =>
          cases msg with
          | hello monitorRect displays =>
              cases taken
              exact .hello here isOpen queue
          | displays displays =>
              cases taken
              exact .displays here isOpen queue
          | video frame =>
              cases taken
              exact .video here isOpen queue
        next => cases taken
  | readError id =>
      simp only [step] at taken
      split at taken
      next => cases taken
      next c here =>
        obtain ⟨isOpen, same⟩ := Option.ite_none_right_eq_some.mp taken
        cases same
        exact .failed here isOpen
  | agent id l =>
      simp only [step] at taken
      split at taken
      next => cases taken
      next c here =>
        obtain ⟨c', turned, same⟩ := Option.map_eq_some_iff.mp taken
        cases same
        exact .turned here turned

end Broker
end ReachMyDevice
