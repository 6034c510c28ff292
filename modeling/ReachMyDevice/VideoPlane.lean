import ReachMyDevice.Broker
import ReachMyDevice.Lib.Slots

/-!
# The two video planes

A host captures the screen itself, or takes the frames of agents over the broker. A
plane is idle when no frame can come out of it before it is resumed.
-/
namespace ReachMyDevice

/-! ## When the broker's agents are quiet -/

def agentFrames (msgs : List AgentMsg) : List VideoFrame :=
  msgs.filterMap fun
    | .video frame => some frame
    | _ => none

/-- An agent that does not capture and is not about to. -/
structure AgentConn.Quiet (c : AgentConn) : Prop where
  stopped : c.agent.pipeline.Stopped
  ctrl : CaptureCmd.setCapturing true ∉ c.agent.ctrl
  toAgent : BrokerMsg.setCapturing true ∉ c.toAgent
  toBroker : agentFrames c.toBroker = []

instance (c : AgentConn) : Decidable c.Quiet :=
  decidable_of_iff (c.agent.pipeline.Stopped ∧ CaptureCmd.setCapturing true ∉ c.agent.ctrl ∧
      BrokerMsg.setCapturing true ∉ c.toAgent ∧ agentFrames c.toBroker = [])
    ⟨fun ⟨stopped, ctrl, toAgent, toBroker⟩ => ⟨stopped, ctrl, toAgent, toBroker⟩,
      fun h => ⟨h.stopped, h.ctrl, h.toAgent, h.toBroker⟩⟩

namespace Broker

/-- The agents whose frames may be passed on, now or later. -/
def candidates (b : Broker) : List Nat := b.activeId.toList ++ b.pending

/-- No such agent captures, or will be told to. -/
structure Quiet (b : Broker) : Prop where
  capturing : b.capturing = false
  cmds : PlaneCmd.setCapturing true ∉ b.cmds
  conns : ∀ id ∈ b.candidates, ∀ c ∈ b.conns[id]?, c.Quiet

instance (b : Broker) : Decidable b.Quiet :=
  decidable_of_iff (b.capturing = false ∧ PlaneCmd.setCapturing true ∉ b.cmds ∧
      ∀ id ∈ b.candidates, ∀ c ∈ b.conns[id]?, c.Quiet)
    ⟨fun ⟨capturing, cmds, conns⟩ => ⟨capturing, cmds, conns⟩,
      fun h => ⟨h.capturing, h.cmds, h.conns⟩⟩

end Broker

namespace AgentConn

theorem accepted_quiet (displays : List DisplayInfo) (displayIndex bitrate : Nat)
    (monitorRect : Option MonitorRect) : (accepted displays displayIndex bitrate monitorRect).Quiet :=
  ⟨⟨⟨rfl, rfl⟩, rfl, rfl⟩, List.not_mem_nil, List.not_mem_nil, rfl⟩

theorem Quiet.send {c : AgentConn} (h : c.Quiet) {msgs : List BrokerMsg}
    (other : BrokerMsg.setCapturing true ∉ msgs) : (c.send msgs).Quiet := by
  unfold AgentConn.send
  split
  · refine ⟨h.stopped, h.ctrl, fun member => ?_, h.toBroker⟩
    rcases List.mem_append.mp member with old | new
    · exact h.toAgent old
    · exact other new
  · exact h

theorem receive_ctrl {a : Agent} {msg : BrokerMsg} (quiet : CaptureCmd.setCapturing true ∉ a.ctrl)
    (other : msg ≠ .setCapturing true) : CaptureCmd.setCapturing true ∉ (a.receive msg).ctrl := by
  intro member
  cases msg with
  | setBitrate bps => exact quiet member
  | forceKeyframe => exact quiet member
  | setCapturing on =>
      rcases List.mem_append.mp member with old | new
      · exact quiet old
      · cases List.mem_singleton.mp new
        exact other rfl
  | selectDisplay id | setShowCursor visible =>
      rcases List.mem_append.mp member with old | new
      · exact quiet old
      · cases List.mem_singleton.mp new

theorem receive_stopped {a : Agent} (stopped : a.pipeline.Stopped) (msg : BrokerMsg) :
    (a.receive msg).pipeline.Stopped := by
  cases msg <;> exact ⟨⟨stopped.off.handle, stopped.off.ending⟩, stopped.frames, stopped.encoding⟩

theorem apply_off {ctl : CaptureController} (off : ctl.Off) (started : Bool) {cmd : CaptureCmd}
    (other : cmd ≠ .setCapturing true) : (Agent.apply ctl started cmd).Off := by
  cases cmd with
  | setCapturing on =>
      cases on with
      | true => exact absurd rfl other
      | false => exact off.pause
  | select id => exact off.select id started
  | setShowCursor visible => exact off.setShowCursor visible started

/-- Left alone, an agent stays quiet. -/
theorem Quiet.agentStep {c c' : AgentConn} {l : AgentLabel} (h : c.Quiet)
    (taken : c.agentStep l = some c') : c'.Quiet := by
  obtain ⟨-, turns⟩ := agentStep_cases taken
  cases turns with
  | @receive msg rest queue =>
      have waiting := h.toAgent
      rw [queue, List.mem_cons, not_or] at waiting
      exact ⟨receive_stopped h.stopped msg, receive_ctrl h.ctrl (Ne.symm waiting.1), waiting.2,
        h.toBroker⟩
  | @control started cmd rest queue =>
      have waiting := h.ctrl
      rw [queue, List.mem_cons, not_or] at waiting
      refine ⟨⟨?_, h.stopped.frames, h.stopped.encoding⟩, waiting.2, h.toAgent, h.toBroker⟩
      exact apply_off h.stopped.off started (Ne.symm waiting.1)
  | pipeline stepped =>
      rw [h.stopped.step] at stepped
      cases stepped
  | hotplug =>
      refine ⟨h.stopped, h.ctrl, h.toAgent, ?_⟩
      rw [agentFrames, List.filterMap_append]
      exact List.append_eq_nil_iff.mpr ⟨h.toBroker, rfl⟩
  | stop =>
      refine ⟨⟨⟨rfl, rfl⟩, rfl, rfl⟩, h.ctrl, h.toAgent, ?_⟩
      have none_ := h.toBroker
      simp only [agentFrames, List.filterMap_eq_nil_iff] at none_ ⊢
      exact fun msg member => none_ msg (List.mem_of_mem_take member)

end AgentConn

namespace Broker

/-- A connection is replaced by one that is quiet if it was. -/
theorem Quiet.set {b : Broker} {id : Nat} {c c' : AgentConn} (h : b.Quiet)
    (here : b.conns[id]? = some c) (kept : c.Quiet → c'.Quiet) :
    Quiet { b with conns := b.conns.set id c' } := by
  refine ⟨h.capturing, h.cmds, fun other candidate d found => ?_⟩
  obtain ⟨rfl, rfl⟩ | ⟨-, found⟩ := Slots.getElem?_set_cases found
  · exact kept (h.conns _ candidate c here)
  · exact h.conns other candidate d found

theorem Quiet.sendActive {b : Broker} (h : b.Quiet) {msgs : List BrokerMsg}
    (other : BrokerMsg.setCapturing true ∉ msgs) : (b.sendActive msgs).Quiet := by
  unfold Broker.sendActive
  split
  · exact h
  · unfold sendTo
    split
    · exact h
    · rename_i here
      exact h.set here fun quiet => quiet.send other

/-- Fewer candidates, and whatever the loop tells the host session of the displays. -/
theorem Quiet.fewer {b b' : Broker} (h : b.Quiet) (capturing : b'.capturing = b.capturing)
    (cmds : b'.cmds = b.cmds) (conns : b'.conns = b.conns)
    (subset : b'.candidates ⊆ b.candidates) : b'.Quiet := by
  refine ⟨capturing.trans h.capturing, cmds ▸ h.cmds, fun id candidate => ?_⟩
  rw [conns]
  exact h.conns id (subset candidate)

theorem Quiet.onHello {b : Broker} (h : b.Quiet) (id : Nat) (monitorRect : Option MonitorRect)
    (displays : List DisplayDesc) : (b.onHello id monitorRect displays).Quiet := by
  unfold Broker.onHello
  split
  · rename_i waiting
    simp only [h.capturing, Bool.false_eq_true, if_false]
    refine h.fewer h.capturing.symm rfl rfl fun other candidate => ?_
    rcases List.mem_append.mp candidate with active | pending
    · cases List.mem_singleton.mp active
      exact List.mem_append_right _ waiting
    · exact List.mem_append_right _ (List.mem_of_mem_filter pending)
  · exact h

theorem Quiet.onEvent {b : Broker} (h : b.Quiet) (ev : AgentEvent) : (b.onEvent ev).Quiet := by
  cases ev with
  | hello id monitorRect displays => exact h.onHello id monitorRect displays
  | displays id displays =>
      simp only [Broker.onEvent, onDisplays]
      split
      · exact h.fewer rfl rfl rfl (List.Subset.refl _)
      · exact h
  | closed id =>
      have without : ∀ other ∈ b.pending.filter (· ≠ id), other ∈ b.candidates := fun _ pending =>
        List.mem_append_right _ (List.mem_of_mem_filter pending)
      simp only [Broker.onEvent, onClosed]
      split
      · exact h.fewer rfl rfl rfl without
      · refine h.fewer rfl rfl rfl fun other candidate => ?_
        rcases List.mem_append.mp candidate with active | pending
        · exact List.mem_append_left _ active
        · exact without other pending

theorem Quiet.onCommand {b : Broker} (h : b.Quiet) {cmd : PlaneCmd}
    (other : cmd ≠ .setCapturing true) : (b.onCommand cmd).Quiet := by
  cases cmd with
  | setCapturing on =>
      cases on with
      | true => exact absurd rfl other
      | false =>
          have off : Quiet { b with capturing := false } := ⟨rfl, h.cmds, h.conns⟩
          exact off.sendActive (by simp)
  | select id | setShowCursor visible | keyframe => exact h.sendActive (by simp)

theorem Quiet.onMessage {b : Broker} (h : b.Quiet) {id : Nat} {c : AgentConn} {msg : AgentMsg}
    {rest : List AgentMsg} (here : b.conns[id]? = some c) (queue : c.toBroker = msg :: rest) :
    (onMessage { b with conns := b.conns.set id { c with toBroker := rest } } id msg).1.Quiet ∧
      (onMessage { b with conns := b.conns.set id { c with toBroker := rest } } id msg).2 = [] := by
  have after : Quiet { b with conns := b.conns.set id { c with toBroker := rest } } := by
    refine h.set here fun quiet => ⟨quiet.stopped, quiet.ctrl, quiet.toAgent, ?_⟩
    have none_ := quiet.toBroker
    rw [queue] at none_
    cases msg with
    | video frame => simp [agentFrames] at none_
    | hello monitorRect displays => exact none_
    | displays displays => exact none_
  cases msg with
  | hello monitorRect displays => exact ⟨⟨after.capturing, after.cmds, after.conns⟩, rfl⟩
  | displays displays => exact ⟨⟨after.capturing, after.cmds, after.conns⟩, rfl⟩
  | video frame =>
      refine ⟨after, if_neg fun active => ?_⟩
      have candidate : id ∈ b.candidates := List.mem_append_left _ (Option.mem_toList.mpr active)
      have none_ := (h.conns id candidate c here).toBroker
      simp [queue, agentFrames] at none_

/-- Left alone, the broker stays quiet and passes no frame on. -/
theorem Quiet.step {greeters : List Nat} {b b' : Broker} {l : BrokerLabel}
    {frames : List VideoFrame} (h : b.Quiet)
    (taken : b.step greeters l = some (b', frames)) : b'.Quiet ∧ frames = [] := by
  have found := step_cases taken
  cases found with
  | accepted =>
      refine ⟨⟨h.capturing, h.cmds, fun id candidate c found => ?_⟩, rfl⟩
      obtain found | ⟨-, rfl⟩ := Slots.getElem?_concat_cases found
      · have old := (List.getElem?_eq_some_iff.mp found).1
        refine h.conns id ?_ c found
        rcases List.mem_append.mp candidate with active | pending
        · exact List.mem_append_left _ active
        · rcases List.mem_cons.mp pending with new | pending
          · omega
          · exact List.mem_append_right _ pending
      · exact AgentConn.accepted_quiet ..
  | refused => exact ⟨h, rfl⟩
  | @event ev rest =>
      have rest : Quiet { b with events := rest } := ⟨h.capturing, h.cmds, h.conns⟩
      exact ⟨rest.onEvent ev, rfl⟩
  | @command cmd rest queue =>
      have waiting := h.cmds
      rw [queue, List.mem_cons, not_or] at waiting
      have rest : Quiet { b with cmds := rest } := ⟨h.capturing, waiting.2, h.conns⟩
      exact ⟨rest.onCommand (Ne.symm waiting.1), rfl⟩
  | ticked capturing =>
      rw [h.capturing] at capturing
      cases capturing
  | skipped => exact ⟨h, rfl⟩
  | hello here _ queue => exact h.onMessage here queue
  | displays here _ queue => exact h.onMessage here queue
  | video here _ queue => exact h.onMessage here queue
  | @failed id c here =>
      have closed : Quiet { b with conns := b.conns.set id { c with isOpen := false } } :=
        h.set here fun quiet => ⟨quiet.stopped, quiet.ctrl, quiet.toAgent, quiet.toBroker⟩
      exact ⟨⟨closed.capturing, closed.cmds, closed.conns⟩, rfl⟩
  | turned here turned => exact ⟨h.set here fun quiet => quiet.agentStep turned, rfl⟩

end Broker

/-! ## The plane of a host session -/

inductive VideoPlane
  | inProcess (p : Pipeline)
  | broker (b : Broker)
  deriving DecidableEq, Repr

def VideoPlane.isBroker : VideoPlane → Bool
  | .inProcess _ => false
  | .broker _ => true

inductive PlaneLabel
  | inProcess (l : PipelineLabel)
  | broker (l : BrokerLabel)

namespace VideoPlane

/-- `started`: a capture session can be started now. -/
def call (started : Bool) : VideoPlane → VideoCall → VideoPlane
  | .inProcess p, .resume => .inProcess { p with ctl := p.ctl.resume started }
  | .inProcess p, .pause => .inProcess { p with ctl := p.ctl.pause }
  | .inProcess p, .select id => .inProcess { p with ctl := p.ctl.select id started }
  | .inProcess p, .setShowCursor visible =>
    .inProcess { p with ctl := p.ctl.setShowCursor visible started }
  | .inProcess p, .requestKeyframe => .inProcess { p with ctl := { p.ctl with forceKeyframe := true } }
  | .broker b, .resume => .broker (b.post (.setCapturing true))
  | .broker b, .pause => .broker (b.post (.setCapturing false))
  | .broker b, .select id => .broker (b.post (.select id))
  | .broker b, .setShowCursor visible => .broker (b.post (.setShowCursor visible))
  | .broker b, .requestKeyframe => .broker (b.post .keyframe)

/-- The calls among the effects of a handler, in order. -/
def calls (started : Bool) (p : VideoPlane) (effects : List HostEffect) : VideoPlane :=
  effects.foldl (fun p e =>
    match e with
    | .video c => p.call started c
    | _ => p) p

def descriptors : VideoPlane → List DisplayDescriptor
  | .inProcess p => p.ctl.descriptors
  | .broker b => b.shared.displays

/-- Only the broker's geometry ever changes. -/
def pollGeometryChanged : VideoPlane → Option (Option MonitorRect × VideoPlane)
  | .inProcess _ => none
  | .broker b =>
    if b.shared.geometryGen ≠ b.lastGeometryGen then
      some (b.shared.monitorRect, .broker { b with lastGeometryGen := b.shared.geometryGen })
    else none

/-- The encode thread checks the session's flag; no one checks it for the broker. -/
def step (greeters : List Nat) (authorized : Bool) (zoom : CropRect) :
    VideoPlane → PlaneLabel → Option (VideoPlane × List VideoFrame)
  | .inProcess p, .inProcess l =>
    (p.step authorized zoom l).map fun r => (.inProcess r.1, r.2)
  | .broker b, .broker l => (b.step greeters l).map fun r => (.broker r.1, r.2)
  | _, _ => none

/-- Before it is resumed no frame comes out, the session's flag being `authorized`. -/
def Idle (authorized : Bool) : VideoPlane → Prop
  | .inProcess p => authorized = false ∧ p.encoding = none
  | .broker b => b.Quiet

instance (authorized : Bool) (p : VideoPlane) : Decidable (Idle authorized p) := by
  cases p <;> simp only [Idle] <;> infer_instance

/-- Clearing the flag keeps a plane idle. -/
theorem Idle.weaken {authorized authorized' : Bool} {p : VideoPlane} (h : p.Idle authorized)
    (flag : authorized' = true → authorized = true) : p.Idle authorized' := by
  cases p with
  | inProcess p => exact ⟨Bool.eq_false_iff.mpr fun set => by simp [h.1] at flag; simp [flag] at set, h.2⟩
  | broker b => exact h

theorem Idle.call {authorized : Bool} {p : VideoPlane} (h : p.Idle authorized) (started : Bool)
    {c : VideoCall} (other : c ≠ .resume) : (p.call started c).Idle authorized := by
  cases p with
  | inProcess p => cases c <;> exact h
  | broker b =>
      have posted {cmd : PlaneCmd} (quiet : cmd ≠ .setCapturing true) : (b.post cmd).Quiet := by
        refine ⟨h.capturing, fun member => ?_, h.conns⟩
        rcases List.mem_append.mp member with old | new
        · exact h.cmds old
        · exact quiet (List.mem_singleton.mp new).symm
      cases c with
      | resume => exact absurd rfl other
      | pause | select id | setShowCursor visible | requestKeyframe => exact posted nofun

theorem Idle.calls {authorized : Bool} {p : VideoPlane} (h : p.Idle authorized) (started : Bool)
    {effects : List HostEffect} (other : HostEffect.video .resume ∉ effects) :
    (p.calls started effects).Idle authorized := by
  induction effects generalizing p with
  | nil => exact h
  | cons e effects ih =>
      rw [List.mem_cons, not_or] at other
      refine ih ?_ other.2
      cases e with
      | video c => exact h.call started fun same => other.1 (by rw [same])
      | _ => exact h

theorem Idle.step {greeters : List Nat} {authorized : Bool} {zoom : CropRect} {p p' : VideoPlane}
    {l : PlaneLabel} {frames : List VideoFrame} (h : p.Idle authorized)
    (taken : p.step greeters authorized zoom l = some (p', frames)) :
    p'.Idle authorized ∧ frames = [] := by
  cases p with
  | inProcess p =>
      cases l with
      | broker l => cases taken
      | inProcess l =>
          obtain ⟨⟨q, out⟩, stepped, same⟩ := Option.map_eq_some_iff.mp taken
          cases same
          obtain ⟨shut, empty⟩ := h
          rw [shut] at stepped
          obtain ⟨stays, silent⟩ := Pipeline.step_shut empty stepped
          exact ⟨⟨shut, stays⟩, silent⟩
  | broker b =>
      cases l with
      | inProcess l => cases taken
      | broker l =>
          obtain ⟨⟨q, out⟩, stepped, same⟩ := Option.map_eq_some_iff.mp taken
          cases same
          exact Broker.Quiet.step h stepped

theorem Idle.pollGeometryChanged {authorized : Bool} {p p' : VideoPlane}
    {rect : Option MonitorRect} (h : p.Idle authorized)
    (changed : p.pollGeometryChanged = some (rect, p')) : p'.Idle authorized := by
  cases p with
  | inProcess p => cases changed
  | broker b =>
      obtain ⟨-, same⟩ := Option.ite_none_right_eq_some.mp changed
      cases same
      exact h.fewer rfl rfl rfl (List.Subset.refl _)

end VideoPlane
end ReachMyDevice
