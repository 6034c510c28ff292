import ReachMyDevice.AgentHandover
import ReachMyDevice.VideoGate

/-!
# Login sessions that are locked while nobody watches

An agent unlocks its login session when it is told to capture and locks it when it is
told to stop. The host session, the broker and the agents run together.
-/
namespace ReachMyDevice
open Machines

/-! ## The gate of a login session -/

/-- `locked` is what `loginctl` reports. -/
structure SessionGate where
  enabled : Bool
  locked : Bool
  idleInhibit : Bool
  deriving DecidableEq, Repr

namespace SessionGate

def lock (g : SessionGate) : SessionGate :=
  if !g.enabled then g
  else if g.locked then g
  else { g with locked := true }

/-- `spawned`: the inhibitor can be started. -/
def unlock (g : SessionGate) (spawned : Bool) : SessionGate :=
  if !g.enabled then g
  else { g with idleInhibit := g.idleInhibit || spawned, locked := false }

def releaseIdle (g : SessionGate) : SessionGate := { g with idleInhibit := false }

/-- What a command means for the gate. -/
def apply (spawned : Bool) (g : SessionGate) : CaptureCmd → SessionGate
  | .setCapturing true => g.unlock spawned
  | .setCapturing false => g.releaseIdle.lock
  | .select _ => g
  | .setShowCursor _ => g

def AtRest (g : SessionGate) : Prop :=
  g.enabled = true → g.locked = true ∧ g.idleInhibit = false

instance (g : SessionGate) : Decidable g.AtRest := inferInstanceAs (Decidable (_ → _))

theorem lock_atRest {g : SessionGate} (released : g.idleInhibit = false) : g.lock.AtRest := by
  unfold lock
  split
  · rename_i off
    intro enabled
    rw [enabled] at off
    cases off
  · split
    · rename_i locked
      exact fun _ => ⟨locked, released⟩
    · exact fun _ => ⟨rfl, released⟩

end SessionGate

/-- The thread of an agent that owns the gate. It locks once before it takes commands. -/
structure CaptureThread where
  gate : SessionGate
  ready : Bool
  deriving DecidableEq, Repr

namespace CaptureThread

def new (enabled locked : Bool) : CaptureThread where
  gate := { enabled, locked, idleInhibit := false }
  ready := false

def first (t : CaptureThread) : CaptureThread where
  gate := t.gate.lock
  ready := true

def control (spawned : Bool) (ctrl : List CaptureCmd) (t : CaptureThread) : CaptureThread :=
  match ctrl with
  | [] => t
  | cmd :: _ => { t with gate := t.gate.apply spawned cmd }

/-- The reader loop has ended: it leaves a last command, and the thread locks once more. -/
def teardown (spawned : Bool) (ctrl : List CaptureCmd) (t : CaptureThread) : CaptureThread where
  gate := ((ctrl ++ [CaptureCmd.setCapturing false]).foldl (SessionGate.apply spawned)
    (if t.ready then t.gate else t.gate.lock)).releaseIdle.lock
  ready := true

theorem teardown_atRest (spawned : Bool) (ctrl : List CaptureCmd) (t : CaptureThread) :
    (t.teardown spawned ctrl).gate.AtRest := SessionGate.lock_atRest rfl

/-- The session is unlocked, or the inhibitor is held. -/
def busy (t : CaptureThread) : Bool := t.ready && !decide t.gate.AtRest

theorem busy_eq_false {t : CaptureThread} : t.busy = false ↔ t.ready = true → t.gate.AtRest := by
  simp [busy]

end CaptureThread

/-! ## What an agent will be told -/

def PlaneCmd.switch? : PlaneCmd → Option Bool
  | .setCapturing on => some on
  | _ => none

def BrokerMsg.switch? : BrokerMsg → Option Bool
  | .setCapturing on => some on
  | _ => none

def CaptureCmd.switch? : CaptureCmd → Option Bool
  | .setCapturing on => some on
  | _ => none

/-- Whether to capture once all switches are taken. -/
def lastSwitch (on : Bool) (switches : List Bool) : Bool := switches.getLast?.getD on

theorem lastSwitch_cons (on next : Bool) (switches : List Bool) :
    lastSwitch on (next :: switches) = lastSwitch next switches := by
  simp only [lastSwitch, List.getLast?_cons, Option.getD_some]

theorem lastSwitch_concat (on last : Bool) (switches : List Bool) :
    lastSwitch on (switches ++ [last]) = last := by
  simp only [lastSwitch, List.getLast?_concat, Option.getD_some]

/-- Off in the end, whatever it was before, if it was off or is switched off even from on. -/
theorem lastSwitch_off {on : Bool} {switches : List Bool} (off : lastSwitch true switches = false) :
    lastSwitch on switches = false := by
  unfold lastSwitch at off ⊢
  cases last : switches.getLast? with
  | none =>
      rw [last] at off
      cases off
  | some b =>
      rw [last] at off
      exact off

namespace AgentConn

/-- The switches that are still on their way to the thread. -/
def switches (c : AgentConn) : List Bool :=
  c.agent.ctrl.filterMap CaptureCmd.switch? ++ c.toAgent.filterMap BrokerMsg.switch?

/-- The session of an agent is unlocked when all is done. -/
def staysBusy (c : AgentConn) (t : CaptureThread) : Bool := lastSwitch t.busy c.switches

theorem switches_send {c : AgentConn} {msgs : List BrokerMsg} :
    (c.send msgs).switches =
      c.switches ++ if c.isOpen then msgs.filterMap BrokerMsg.switch? else [] := by
  unfold send
  split
  · rename_i isOpen
    simp only [switches, List.filterMap_append, List.append_assoc]
  · rename_i shut
    simp only [List.append_nil]

theorem switches_receive {c : AgentConn} {msg : BrokerMsg} {rest : List BrokerMsg}
    (queue : c.toAgent = msg :: rest) :
    switches { c with agent := c.agent.receive msg, toAgent := rest } = c.switches := by
  have forwards : ∀ cmd : CaptureCmd, (c.agent.receive msg).ctrl = c.agent.ctrl ++ [cmd] →
      msg.switch? = cmd.switch? →
      switches { c with agent := c.agent.receive msg, toAgent := rest } = c.switches := by
    intro cmd left same
    simp only [switches, queue, left, List.filterMap_append, List.append_assoc, List.filterMap_cons,
      List.filterMap_nil, same]
    cases cmd.switch? <;> rfl
  cases msg with
  | setCapturing on => exact forwards _ rfl rfl
  | selectDisplay id => exact forwards _ rfl rfl
  | setShowCursor visible => exact forwards _ rfl rfl
  | setBitrate bps =>
      simp only [switches, queue, Agent.receive, List.filterMap_cons, BrokerMsg.switch?]
  | forceKeyframe =>
      simp only [switches, queue, Agent.receive, List.filterMap_cons, BrokerMsg.switch?]

/-- The thread takes a command. -/
theorem staysBusy_control {c : AgentConn} {t : CaptureThread} {cmd : CaptureCmd}
    {rest : List CaptureCmd} {agent : Agent} (spawned : Bool)
    (queue : c.agent.ctrl = cmd :: rest) (left : agent.ctrl = rest)
    (off : c.staysBusy t = false) :
    staysBusy { c with agent } (t.control spawned c.agent.ctrl) = false := by
  simp only [staysBusy, switches, queue, CaptureThread.control, left] at off ⊢
  cases cmd with
  | setCapturing on =>
      simp only [List.filterMap_cons, CaptureCmd.switch?, List.cons_append, lastSwitch_cons] at off
      cases on with
      | true => exact lastSwitch_off off
      | false =>
          have rests : CaptureThread.busy
              { t with gate := t.gate.apply spawned (.setCapturing false) } = false :=
            CaptureThread.busy_eq_false.mpr fun _ => SessionGate.lock_atRest rfl
          rw [rests]
          exact off
  | select id => exact off
  | setShowCursor visible => exact off

end AgentConn

/-! ## The threads of the agents -/

/-- What the surroundings give: how a gate is found, and whether the inhibitor starts. -/
structure GateChoice where
  enabled : Bool
  locked : Bool
  spawned : Bool
  deriving DecidableEq, Repr

/-- A thread takes no command before it has locked. -/
def waiting (threads : List CaptureThread) : BrokerLabel → Bool
  | .agent id (.control _) => threads[id]?.any fun t => !t.ready
  | _ => false

def Broker.ctrl (b : Broker) (id : Nat) : List CaptureCmd :=
  (b.conns[id]?.map (·.agent.ctrl)).getD []

/-- What a step of the broker does to the threads. -/
def turn (greeters : List Nat) (b : Broker) (choice : GateChoice) (threads : List CaptureThread) :
    BrokerLabel → List CaptureThread
  | .accept uid .. =>
    if permits greeters uid then threads ++ [.new choice.enabled choice.locked] else threads
  | .agent id (.control _) => threads.modify id (.control choice.spawned (b.ctrl id))
  | .agent id (.stop _) => threads.modify id (.teardown choice.spawned (b.ctrl id))
  | _ => threads

/-! ## The composition -/

/-- The threads stand at the ids of their connections. -/
structure LockedHost (J D H : Type) where
  host : VideoHost J D H
  threads : List CaptureThread

inductive LockLabel (J : Type)
  | video (l : VideoLabel J) (choice : GateChoice)
  /-- The thread of an agent locks for the first time. -/
  | firstLock (id : Nat)

namespace LockedHost
variable {J D H : Type}

def agents (s : LockedHost J D H) : List (AgentConn × CaptureThread) :=
  match s.host.plane with
  | .inProcess _ => []
  | .broker b => b.conns.zip s.threads

def cmds (s : LockedHost J D H) : List PlaneCmd :=
  match s.host.plane with
  | .inProcess _ => []
  | .broker b => b.cmds

def authorized (s : LockedHost J D H) : Bool := s.host.host.session.authorized

def waits (s : LockedHost J D H) : VideoLabel J → Bool
  | .plane (.broker l) => waiting s.threads l
  | _ => false

def turned (greeters : List Nat) (s : LockedHost J D H) (choice : GateChoice) :
    VideoLabel J → List CaptureThread
  | .plane (.broker l) =>
    match s.host.plane with
    | .inProcess _ => s.threads
    | .broker b => turn greeters b choice s.threads l
  | _ => s.threads

variable [DecidableEq J]

def step (env : HostEnv D H) (rtc : Rtc J) (greeters : List Nat) (s : LockedHost J D H) :
    LockLabel J → Option (LockedHost J D H)
  | .video l choice =>
    if s.waits l then none
    else (s.host.step env rtc greeters l).map fun host =>
      { host, threads := s.turned greeters choice l }
  | .firstLock id =>
    s.threads[id]?.bind fun t =>
      if t.ready then none else some { s with threads := s.threads.set id t.first }

/-- The host of a broker. -/
def machine (env : HostEnv D H) (rtc : Rtc J) (greeters : List Nat) :
    Machine (LockedHost J D H) (LockLabel J) where
  init s := ∃ gathered injector downloadDir disk,
    s = ⟨⟨.start rtc gathered injector downloadDir disk, .broker .new, []⟩, []⟩
  step := step env rtc greeters

omit [DecidableEq J]

/-- No command is left, and no agent has a first lock or the end of its connection before it. -/
def Settled (s : LockedHost J D H) : Prop :=
  s.cmds = [] ∧ ∀ p ∈ s.agents, p.1.running = true →
    p.2.ready = true ∧ p.1.isOpen = true ∧ p.1.toAgent = [] ∧ p.1.agent.ctrl = []

/-- With nobody to watch, every login session is locked once all is done. -/
def LockedAtRest (s : LockedHost J D H) : Prop :=
  s.Settled → s.authorized = false → ∀ p ∈ s.agents, p.2.gate.AtRest

/-- A connection comes up, or a `Hello` is rejected, only while no viewer is authorized. While the
broker captures, an agent takes over only from one that is gone. -/
def EndsWithPause (env : HostEnv D H) (s : LockedHost J D H) : LockLabel J → Prop
  | .video (.handle r _) _ =>
    match s.host.host.link.events with
    | (_, .connected) :: _ => s.authorized = false
    | (_, .data bytes) :: _ =>
      s.host.host.session.verdict env r bytes = some false → s.authorized = false
    | _ => True
  | .video (.plane (.broker .event)) _ =>
    match s.host.plane with
    | .inProcess _ => True
    | .broker b => b.greets ≠ none → b.capturing = true → ∀ old ∈ b.active, ∀ c ∈ b.conns[old]?,
      c.isOpen = false ∨ c.running = false
  | _ => True

end LockedHost

/-! ## What every agent will have done -/

/-- An agent that is told nothing more ends up locked, and so does the active one unless the broker
captures. -/
structure Wound (b : Broker) (threads : List CaptureThread) : Prop where
  length : threads.length = b.conns.length
  ended : ∀ id, .closed id ∈ b.events → ∃ c, b.conns[id]? = some c ∧ c.isOpen = false
  fresh : ∀ (id : Nat) (t : CaptureThread), threads[id]? = some t → t.ready = false →
    t.gate.idleInhibit = false
  stopped : ∀ (id : Nat) (c : AgentConn) (t : CaptureThread), b.conns[id]? = some c →
    threads[id]? = some t → c.running = false → t.ready = true ∧ t.gate.AtRest
  told : ∀ (id : Nat) (c : AgentConn) (t : CaptureThread), b.conns[id]? = some c →
    threads[id]? = some t → c.running = true → c.isOpen = true →
    (b.active = some id → b.capturing = false) → c.staysBusy t = false

namespace Wound

section
variable {b b' : Broker} {threads : List CaptureThread} {id : Nat} {c c' : AgentConn}

theorem start : Wound .new [] := by
  refine ⟨rfl, fun id ended => ?_, fun id t here => ?_, fun id c t here => ?_,
    fun id c t here => ?_⟩
  · cases ended
  · cases here
  · cases here
  · cases here

/-- A step that leaves the connections, and ends nothing that was active. -/
theorem frame (h : Wound b threads) (conns : b'.conns = b.conns)
    (events : ∀ id, .closed id ∈ b'.events → .closed id ∈ b.events)
    (active : ∀ (id : Nat) (c : AgentConn), b.conns[id]? = some c → c.running = true →
      c.isOpen = true → (b'.active = some id → b'.capturing = false) →
      b.active = some id → b.capturing = false) : Wound b' threads := by
  refine ⟨?_, fun id ended => ?_, h.fresh, fun id c t here => ?_,
    fun id c t here thread running isOpen off => ?_⟩
  · rw [conns]
    exact h.length
  · rw [conns]
    exact h.ended id (events id ended)
  · rw [conns] at here
    exact h.stopped id c t here
  · rw [conns] at here
    exact h.told id c t here thread running isOpen (active id c here running isOpen off)

/-- A connection and its thread go on. -/
theorem set (h : Wound b threads) (f : CaptureThread → CaptureThread)
    (here : b.conns[id]? = some c) (conns : b'.conns = b.conns.set id c')
    (active : b'.active = b.active) (capturing : b'.capturing = b.capturing)
    (isOpen : c'.isOpen = true → c.isOpen = true)
    (events : ∀ other, .closed other ∈ b'.events →
      .closed other ∈ b.events ∨ other = id ∧ c'.isOpen = false)
    (fresh : ∀ t, threads[id]? = some t → (f t).ready = false → (f t).gate.idleInhibit = false)
    (stopped : ∀ t, threads[id]? = some t → c'.running = false →
      (f t).ready = true ∧ (f t).gate.AtRest)
    (told : ∀ t, threads[id]? = some t → c'.running = true →
      c.running = true ∧ (c.staysBusy t = false → c'.staysBusy (f t) = false)) :
    Wound b' (threads.modify id f) := by
  have inside := (List.getElem?_eq_some_iff.mp here).1
  have own : ∀ {d : AgentConn}, b'.conns[id]? = some d → d = c' := by
    intro d there
    rw [conns, List.getElem?_set_self inside] at there
    exact (Option.some.inj there).symm
  have other : ∀ {i : Nat}, i ≠ id → b'.conns[i]? = b.conns[i]? := by
    intro i ne
    rw [conns, List.getElem?_set_ne (Ne.symm ne)]
  have ownThread : ∀ {t : CaptureThread}, (threads.modify id f)[id]? = some t →
      ∃ before, threads[id]? = some before ∧ f before = t := by
    intro t there
    rw [List.getElem?_modify_eq] at there
    exact Option.map_eq_some_iff.mp there
  have otherThread : ∀ {i : Nat}, i ≠ id → (threads.modify id f)[i]? = threads[i]? := by
    intro i ne
    rw [List.getElem?_modify_ne _ _ (Ne.symm ne)]
  refine ⟨?_, fun i ended => ?_, fun i t there => ?_, fun i d t there thread => ?_,
    fun i d t there thread running listens off => ?_⟩
  · rw [List.length_modify, conns, List.length_set]
    exact h.length
  · obtain before | ⟨rfl, shut⟩ := events i ended
    · obtain ⟨d, there, shut⟩ := h.ended i before
      by_cases same : i = id
      · subst same
        obtain rfl : c = d := Option.some.inj (here.symm.trans there)
        refine ⟨c', ?_, Bool.eq_false_iff.mpr fun set => ?_⟩
        · rw [conns, List.getElem?_set_self inside]
        · exact Bool.noConfusion (shut.symm.trans (isOpen set))
      · exact ⟨d, (other same).trans there, shut⟩
    · exact ⟨c', by rw [conns, List.getElem?_set_self inside], shut⟩
  · by_cases same : i = id
    · subst same
      obtain ⟨before, thread, rfl⟩ := ownThread there
      exact fresh before thread
    · rw [otherThread same] at there
      exact h.fresh i t there
  · by_cases same : i = id
    · subst same
      obtain rfl := own there
      obtain ⟨before, turned, rfl⟩ := ownThread thread
      exact stopped before turned
    · rw [other same] at there
      rw [otherThread same] at thread
      exact h.stopped i d t there thread
  · rw [active, capturing] at off
    by_cases same : i = id
    · subst same
      obtain rfl := own there
      obtain ⟨before, turned, rfl⟩ := ownThread thread
      obtain ⟨ran, stays⟩ := told before turned running
      exact stays (h.told i c before here turned ran (isOpen listens) off)
    · rw [other same] at there
      rw [otherThread same] at thread
      exact h.told i d t there thread running listens off

theorem setConn (h : Wound b threads) (here : b.conns[id]? = some c)
    (conns : b'.conns = b.conns.set id c') (active : b'.active = b.active)
    (capturing : b'.capturing = b.capturing) (isOpen : c'.isOpen = true → c.isOpen = true)
    (events : ∀ other, .closed other ∈ b'.events →
      .closed other ∈ b.events ∨ other = id ∧ c'.isOpen = false)
    (running : c'.running = c.running) (switches : c'.switches = c.switches) :
    Wound b' threads := by
  have turned := h.set (fun t => t) here conns active capturing isOpen events
    (fun t thread => h.fresh id t thread)
    (fun t thread ended => h.stopped id c t here thread (running.symm.trans ended))
    (fun t thread runs => ⟨running.symm.trans runs, fun stays => by
      rw [AgentConn.staysBusy, switches]
      exact stays⟩)
  rw [show threads.modify id (fun t => t) = threads from List.modify_id id threads] at turned
  exact turned

/-- The active agent is told something, as the broker starts or stops to capture. -/
theorem tell (h : Wound b threads) (cmds : List PlaneCmd) (on : Bool) (msgs : List BrokerMsg)
    (quiet : on = false → ∀ busy switches, (b.capturing = false → lastSwitch busy switches = false) →
      lastSwitch busy (switches ++ msgs.filterMap BrokerMsg.switch?) = false) :
    Wound (Broker.sendActive { b with cmds, capturing := on } msgs) threads := by
  unfold Broker.sendActive
  simp only
  split
  · rename_i nobody
    refine h.frame rfl (fun id ended => ended) (fun id c here running isOpen off active => ?_)
    rw [nobody] at active
    cases active
  · rename_i own active
    unfold Broker.sendTo
    simp only
    split
    · rename_i missing
      refine h.frame rfl (fun id ended => ended) (fun id c here running isOpen off now => ?_)
      obtain rfl : own = id := Option.some.inj (active.symm.trans now)
      rw [missing] at here
      cases here
    · rename_i c here
      have inside := (List.getElem?_eq_some_iff.mp here).1
      have same : (c.send msgs).isOpen = c.isOpen ∧ (c.send msgs).running = c.running := by
        unfold AgentConn.send
        split <;> exact ⟨rfl, rfl⟩
      refine ⟨?_, fun i ended => ?_, h.fresh, fun i d t there thread shut => ?_,
        fun i d t there thread running isOpen off => ?_⟩
      · simp only [List.length_set]
        exact h.length
      · obtain ⟨d, there, shut⟩ := h.ended i ended
        by_cases eq : i = own
        · subst eq
          obtain rfl : c = d := Option.some.inj (here.symm.trans there)
          exact ⟨c.send msgs, List.getElem?_set_self inside, same.1.trans shut⟩
        · refine ⟨d, ?_, shut⟩
          simp only
          rw [List.getElem?_set_ne (Ne.symm eq)]
          exact there
      · obtain ⟨rfl, rfl⟩ | ⟨-, there⟩ := Slots.getElem?_set_cases there
        · exact h.stopped i c t here thread (same.2.symm.trans shut)
        · exact h.stopped i d t there thread shut
      · obtain ⟨rfl, rfl⟩ | ⟨ne, there⟩ := Slots.getElem?_set_cases there
        · have listens := same.1.symm.trans isOpen
          rw [AgentConn.staysBusy, AgentConn.switches_send, if_pos listens]
          exact quiet (off active) _ _ fun stopped =>
            h.told i c t here thread (same.2.symm.trans running) listens fun _ => stopped
        · refine h.told i d t there thread running isOpen fun now => ?_
          exact absurd (Option.some.inj (now.symm.trans active)) ne

/-- An agent connects, and its thread starts. -/
theorem accept (h : Wound b threads) (enabled locked : Bool) (fresh : c.switches = [])
    (running : c.running = true) :
    Wound { b with conns := b.conns ++ [c], pending := b.conns.length :: b.pending }
      (threads ++ [.new enabled locked]) := by
  have old : ∀ {i : Nat} {d : AgentConn}, b.conns[i]? = some d →
      (threads ++ [CaptureThread.new enabled locked])[i]? = threads[i]? := by
    intro i d there
    rw [List.getElem?_append_left (h.length ▸ (List.getElem?_eq_some_iff.mp there).1)]
  have new : ∀ {t : CaptureThread},
      (threads ++ [CaptureThread.new enabled locked])[b.conns.length]? = some t →
      t = .new enabled locked := by
    intro t there
    rw [← h.length, List.getElem?_concat_length] at there
    exact (Option.some.inj there).symm
  refine ⟨?_, fun i ended => ?_, fun i t there early => ?_, fun i d t there thread shut => ?_,
    fun i d t there thread runs isOpen off => ?_⟩
  · simp only [List.length_append, h.length, List.length_singleton]
  · obtain ⟨d, there, shut⟩ := h.ended i ended
    refine ⟨d, ?_, shut⟩
    simp only
    rw [List.getElem?_append_left (List.getElem?_eq_some_iff.mp there).1]
    exact there
  · obtain there | ⟨-, rfl⟩ := Slots.getElem?_concat_cases there
    · exact h.fresh i t there early
    · rfl
  · obtain there | ⟨rfl, rfl⟩ := Slots.getElem?_concat_cases there
    · rw [old there] at thread
      exact h.stopped i d t there thread shut
    · rw [running] at shut
      cases shut
  · obtain there | ⟨rfl, rfl⟩ := Slots.getElem?_concat_cases there
    · rw [old there] at thread
      exact h.told i d t there thread runs isOpen off
    · rw [new thread, AgentConn.staysBusy, fresh]
      rfl

/-- A thread locks before it does anything else. -/
theorem firstLock (h : Wound b threads) {t : CaptureThread} (thread : threads[id]? = some t)
    (early : t.ready = false) : Wound b (threads.set id t.first) := by
  have inside := (List.getElem?_eq_some_iff.mp thread).1
  have rests : t.first.gate.AtRest := SessionGate.lock_atRest (h.fresh id t thread early)
  refine ⟨?_, h.ended, fun i u there again => ?_, fun i c u here there shut => ?_,
    fun i c u here there running isOpen off => ?_⟩
  · rw [List.length_set]
    exact h.length
  · obtain ⟨rfl, rfl⟩ | ⟨-, there⟩ := Slots.getElem?_set_cases there
    · cases again
    · exact h.fresh i u there again
  · obtain ⟨rfl, rfl⟩ | ⟨-, there⟩ := Slots.getElem?_set_cases there
    · exact ⟨rfl, rests⟩
    · exact h.stopped i c u here there shut
  · obtain ⟨rfl, rfl⟩ | ⟨-, there⟩ := Slots.getElem?_set_cases there
    · have before := h.told i c t here thread running isOpen off
      rw [AgentConn.staysBusy, CaptureThread.busy_eq_false.mpr fun _ => rests]
      rwa [AgentConn.staysBusy, CaptureThread.busy_eq_false.mpr fun ready =>
        Bool.noConfusion (early.symm.trans ready)] at before
    · exact h.told i c u here there running isOpen off

theorem hello (h : Wound b threads) {monitorRect : Option MonitorRect}
    {displays : List DisplayDesc} {rest : List AgentEvent}
    (queue : b.events = .hello id monitorRect displays :: rest)
    (gone : id ∈ b.pending → b.capturing = true → ∀ old ∈ b.active, ∀ c ∈ b.conns[old]?,
      c.isOpen = false ∨ c.running = false) :
    Wound (Broker.onHello { b with events := rest } id monitorRect displays) threads := by
  have later : ∀ other, .closed other ∈ rest → .closed other ∈ b.events := by
    intro other member
    rw [queue]
    exact List.mem_cons_of_mem _ member
  unfold Broker.onHello
  split
  · rename_i waits
    have takes : Wound { b with
        events := rest
        pending := b.pending.filter (· ≠ id), activeId := some id, active := some id
        shared := { b.shared with displays, monitorRect }.bump } threads := by
      refine h.frame rfl later (fun other c here running isOpen off active => ?_)
      -- the agent that is replaced is told nothing more
      by_contra on
      obtain shut | ended := gone waits (Bool.not_eq_false _ ▸ on) other active c here
      · rw [isOpen] at shut
        cases shut
      · rw [running] at ended
        cases ended
    simp only
    split
    · rename_i capturing
      refine takes.tell b.cmds b.capturing _ (fun off => ?_)
      rw [capturing] at off
      cases off
    · exact takes
  · exact h.frame rfl later (fun _ _ _ _ _ off => off)

theorem event (h : Wound b threads) {ev : AgentEvent} {rest : List AgentEvent}
    (queue : b.events = ev :: rest)
    (gone : b.greets ≠ none → b.capturing = true → ∀ old ∈ b.active, ∀ c ∈ b.conns[old]?,
      c.isOpen = false ∨ c.running = false) :
    Wound (Broker.onEvent { b with events := rest } ev) threads := by
  have later : ∀ other, .closed other ∈ rest → .closed other ∈ b.events := by
    intro other member
    rw [queue]
    exact List.mem_cons_of_mem _ member
  cases ev with
  | hello id monitorRect displays =>
      refine h.hello queue (fun waits => gone ?_)
      simp only [Broker.greets, queue, if_pos waits, ne_eq, reduceCtorEq, not_false_eq_true]
  | displays id displays =>
      simp only [Broker.onEvent, Broker.onDisplays]
      split
      · exact h.frame rfl later (fun _ _ _ _ _ off => off)
      · exact h.frame rfl later (fun _ _ _ _ _ off => off)
  | closed id =>
      simp only [Broker.onEvent, Broker.onClosed]
      split
      · rename_i active
        refine h.frame rfl later (fun other c here running isOpen off now => ?_)
        obtain rfl : id = other := Option.some.inj (active.symm.trans now)
        obtain ⟨d, there, shut⟩ := h.ended id (queue ▸ List.mem_cons_self ..)
        obtain rfl : c = d := Option.some.inj (here.symm.trans there)
        rw [isOpen] at shut
        cases shut
      · exact h.frame rfl later (fun _ _ _ _ _ off => off)

theorem command (h : Wound b threads) (cmd : PlaneCmd) (rest : List PlaneCmd) :
    Wound (Broker.onCommand { b with cmds := rest } cmd) threads := by
  cases cmd with
  | setCapturing on =>
      refine h.tell rest on [.setCapturing on] (fun off busy switches _ => ?_)
      subst off
      exact lastSwitch_concat ..
  | select id =>
      refine h.tell rest b.capturing [.selectDisplay id] (fun off busy switches stays => ?_)
      simp only [BrokerMsg.switch?, List.filterMap_cons, List.filterMap_nil, List.append_nil]
      exact stays off
  | setShowCursor visible =>
      refine h.tell rest b.capturing [.setShowCursor visible] (fun off busy switches stays => ?_)
      simp only [BrokerMsg.switch?, List.filterMap_cons, List.filterMap_nil, List.append_nil]
      exact stays off
  | keyframe =>
      refine h.tell rest b.capturing [.forceKeyframe] (fun off busy switches stays => ?_)
      simp only [BrokerMsg.switch?, List.filterMap_cons, List.filterMap_nil, List.append_nil]
      exact stays off

/-- An agent takes one turn, and its thread with it. -/
theorem agentTurn (h : Wound b threads) {greeters : List Nat} {choice : GateChoice} {l : AgentLabel}
    (here : b.conns[id]? = some c) (taken : c.agentStep l = some c')
    (allowed : waiting threads (.agent id l) = false) :
    Wound { b with conns := b.conns.set id c' } (turn greeters b choice threads (.agent id l)) := by
  obtain ⟨running, turns⟩ := AgentConn.agentStep_cases taken
  have ctrl : b.ctrl id = c.agent.ctrl := by
    simp only [Broker.ctrl, here, Option.map_some, Option.getD_some]
  cases turns with
  | receive queue =>
      exact h.setConn here rfl rfl rfl (fun isOpen => isOpen) (fun _ => .inl) rfl
        (AgentConn.switches_receive queue)
  | control queue =>
      simp only [turn, ctrl]
      refine h.set _ here rfl rfl rfl (fun isOpen => isOpen) (fun _ => .inl)
        (fun t thread early => ?_) (fun t thread ended => ?_) (fun t thread runs => ⟨running, ?_⟩)
      · simp only [waiting, thread, Option.any_some, Bool.not_eq_false'] at allowed
        simp only [CaptureThread.control, queue] at early
        rw [allowed] at early
        cases early
      · rw [running] at ended
        cases ended
      · exact AgentConn.staysBusy_control choice.spawned queue rfl
  | pipeline | hotplug =>
      exact h.setConn here rfl rfl rfl (fun isOpen => isOpen) (fun _ => .inl) rfl rfl
  | stop =>
      refine h.set _ here rfl rfl rfl (fun isOpen => isOpen) (fun _ => .inl)
        (fun t thread early => ?_)
        (fun t thread ended => ⟨rfl, CaptureThread.teardown_atRest _ _ _⟩) (fun t thread runs => ?_)
      · cases early
      · cases runs

theorem step (h : Wound b threads) {greeters : List Nat} {choice : GateChoice} {l : BrokerLabel}
    {frames : List VideoFrame} (taken : b.step greeters l = some (b', frames))
    (allowed : waiting threads l = false)
    (gone : l = .event → b.greets ≠ none → b.capturing = true → ∀ old ∈ b.active,
      ∀ c ∈ b.conns[old]?, c.isOpen = false ∨ c.running = false) :
    Wound b' (turn greeters b choice threads l) := by
  have found := Broker.step_cases taken
  cases found with
  | accepted permitted =>
      simp only [turn, if_pos permitted]
      exact h.accept choice.enabled choice.locked rfl rfl
  | refused refused =>
      simp only [turn, if_neg refused]
      exact h
  | event queue => exact h.event queue (gone rfl)
  | @command cmd rest => exact h.command cmd rest
  | @ticked bps =>
      refine h.tell b.cmds b.capturing [.setBitrate bps] (fun off busy switches stays => ?_)
      simp only [BrokerMsg.switch?, List.filterMap_cons, List.filterMap_nil, List.append_nil]
      exact stays off
  | skipped => exact h
  | hello here isOpen | displays here isOpen =>
      refine h.setConn here rfl rfl rfl (fun _ => isOpen) (fun other ended => .inl ?_) rfl rfl
      simpa using ended
  | video here isOpen => exact h.setConn here rfl rfl rfl (fun _ => isOpen) (fun _ => .inl) rfl rfl
  | failed here isOpen =>
      refine h.setConn here rfl rfl rfl (fun _ => isOpen) (fun other ended => ?_) rfl rfl
      obtain before | new := List.mem_append.mp ended
      · exact .inl before
      · cases List.mem_singleton.mp new
        exact .inr ⟨rfl, rfl⟩
  | turned here turned => exact h.agentTurn here turned allowed

end
end Wound

/-! ## What the session asks of its plane -/

/-- Switches that are all off leave it off, and so does a single one. -/
theorem lastSwitch_append {on : Bool} {before new : List Bool} (allOff : true ∉ new)
    (off : lastSwitch on before = false ∨ false ∈ new) : lastSwitch on (before ++ new) = false := by
  unfold lastSwitch at off ⊢
  rw [List.getLast?_append]
  cases last : new.getLast? with
  | none =>
      rw [List.getLast?_eq_none_iff.mp last] at off
      exact off.resolve_right List.not_mem_nil
  | some b =>
      cases b with
      | false => rfl
      | true => exact absurd (List.mem_of_getLast? last) allOff

/-- What an effect of the session posts to the broker. -/
def HostEffect.cmd? : HostEffect → Option PlaneCmd
  | .video call => some call.cmd
  | _ => none

theorem VideoPlane.calls_broker (started : Bool) (effects : List HostEffect) (b : Broker) :
    (VideoPlane.broker b).calls started effects =
      .broker { b with cmds := b.cmds ++ effects.filterMap HostEffect.cmd? } := by
  induction effects generalizing b with
  | nil => simp only [calls, List.foldl_nil, List.filterMap_nil, List.append_nil]
  | cons e effects ih =>
      cases e with
      | video c =>
          have posted : (VideoPlane.broker b).call started c = .broker (b.post c.cmd) := by
            cases c <;> rfl
          have first : (VideoPlane.broker b).calls started (.video c :: effects) =
              ((VideoPlane.broker b).call started c).calls started effects := rfl
          rw [first, posted]
          refine (ih (b.post c.cmd)).trans ?_
          simp only [Broker.post, List.append_assoc, List.filterMap_cons, HostEffect.cmd?,
            List.singleton_append]
      | _ => exact ih b

/-- The switches that the effects of a handler post. -/
def effectSwitches (effects : List HostEffect) : List Bool :=
  (effects.filterMap HostEffect.cmd?).filterMap PlaneCmd.switch?

theorem mem_effectSwitches {effects : List HostEffect} {on : Bool} :
    on ∈ effectSwitches effects ↔
      HostEffect.video (if on then .resume else .pause) ∈ effects := by
  simp only [effectSwitches, List.mem_filterMap]
  constructor
  · rintro ⟨cmd, ⟨e, member, posted⟩, switched⟩
    cases e with
    | video c =>
        cases posted
        cases c <;> cases switched <;> exact member
    | _ => cases posted
  · intro member
    refine ⟨.setCapturing on, ⟨_, member, ?_⟩, rfl⟩
    cases on <;> rfl

namespace HostSession
variable {J D H : Type} {env : HostEnv D H} {sdp : J → Option String} {s : HostSession D H}
  {r : Readings}

/-- A turn after which no viewer is authorized resumes nothing. One that ends an authorization
pauses, unless it is a new connection or a rejected `Hello`. -/
theorem onEvent_unauthorized (ev : TransportEvent J)
    (off : (s.onEvent env sdp r ev).1.authorized = false) :
    HostEffect.video .resume ∉ (s.onEvent env sdp r ev).2 ∧
      (s.authorized = false ∨ HostEffect.video .pause ∈ (s.onEvent env sdp r ev).2 ∨
        ev = .connected ∨ s.eventVerdict env r ev = some false) := by
  have quiet : s.eventVerdict env r ev ≠ some true →
      HostEffect.video .resume ∉ (s.onEvent env sdp r ev).2 := by
    intro other resumes
    exact other (onEvent_resume ev resumes)
  cases ev with
  | connected => exact ⟨quiet (by simp [eventVerdict]), .inr (.inr (.inl rfl))⟩
  | disconnected =>
      refine ⟨quiet (by simp [eventVerdict]), .inr (.inl ?_)⟩
      exact List.mem_append_right _ (List.mem_cons_self ..)
  | localSignal msg => exact ⟨quiet (by simp [eventVerdict]), .inl off⟩
  | video annexb tsHint => exact ⟨quiet (by simp [eventVerdict]), .inl off⟩
  | keyframeRequested => exact ⟨quiet (by simp [eventVerdict]), .inl off⟩
  | data bytes =>
      rw [onEvent, onData_authorized, handleControl_authorized] at off
      simp only [eventVerdict] at quiet ⊢
      cases heard : s.verdict env r bytes with
      | none =>
          rw [heard] at off quiet
          exact ⟨quiet (by simp), .inl off⟩
      | some accepted =>
          rw [heard] at off quiet
          cases accepted with
          | true => cases off
          | false => exact ⟨quiet (by simp), .inr (.inr (.inr rfl))⟩

end HostSession

/-! ## Runs -/

namespace LockedHost
variable {J D H : Type} [DecidableEq J] {env : HostEnv D H} {rtc : Rtc J} {greeters : List Nat}
  {s s' : LockedHost J D H} {b : Broker}

/-- Every state of a run: without a viewer the broker is told to stop in the end. -/
structure Winding (s : LockedHost J D H) (b : Broker) : Prop where
  plane : s.host.plane = .broker b
  off : s.authorized = false →
    lastSwitch b.capturing (b.cmds.filterMap PlaneCmd.switch?) = false
  wound : Wound b s.threads

omit [DecidableEq J] in
/-- The session handles an event. -/
theorem Winding.handle (h : s.Winding b) {r : Readings} {started : Bool} {choice : GateChoice}
    {pc : Pc J} {ev : TransportEvent J} {rest : List (Pc J × TransportEvent J)}
    (queue : s.host.host.link.events = (pc, ev) :: rest)
    (met : s.EndsWithPause env (.video (.handle r started) choice)) :
    Winding { s with host := s.host.handled env rtc r started pc ev rest }
      { b with cmds := b.cmds ++
        (s.host.host.session.onEvent env rtc.sdp r ev).2.filterMap HostEffect.cmd? } := by
  simp only [EndsWithPause, queue] at met
  refine ⟨?_, fun unauthorized => ?_, ?_⟩
  · simp only [VideoHost.handled, h.plane, VideoPlane.calls_broker]
  · simp only [List.filterMap_append]
    obtain ⟨silent, ends⟩ := HostSession.onEvent_unauthorized ev unauthorized
    refine lastSwitch_append (fun on => silent (mem_effectSwitches.mp on)) ?_
    have before : s.authorized = false → lastSwitch b.capturing
        (b.cmds.filterMap PlaneCmd.switch?) = false ∨
          false ∈ effectSwitches (s.host.host.session.onEvent env rtc.sdp r ev).2 := by
      intro already
      exact .inl (h.off already)
    obtain already | paused | rfl | rejected := ends
    · exact before already
    · exact .inr (mem_effectSwitches.mpr paused)
    · exact before met
    · cases ev with
      | data bytes => exact before (met rejected)
      | _ => cases rejected
  · exact h.wound.frame rfl (fun _ ended => ended) (fun _ _ _ _ _ off => off)

/-- A step of the broker that keeps what it will be told in the end. -/
theorem command_switch (greeters : List Nat) {b b' : Broker} {l : BrokerLabel}
    {frames : List VideoFrame} (taken : b.step greeters l = some (b', frames)) :
    lastSwitch b'.capturing (b'.cmds.filterMap PlaneCmd.switch?) =
      lastSwitch b.capturing (b.cmds.filterMap PlaneCmd.switch?) := by
  have found := Broker.step_cases taken
  cases found with
  | @event ev rest =>
      cases ev with
      | hello id monitorRect displays =>
          simp only [Broker.onEvent, Broker.onHello]
          split
          · split
            · simp only [Broker.sendActive_cmds, Broker.sendActive_capturing]
            · rfl
          · rfl
      | displays id displays =>
          simp only [Broker.onEvent, Broker.onDisplays]
          split <;> rfl
      | closed id =>
          simp only [Broker.onEvent, Broker.onClosed]
          split <;> rfl
  | @command cmd rest queue =>
      rw [queue]
      cases cmd with
      | setCapturing on =>
          simp only [Broker.onCommand, Broker.sendActive_cmds, Broker.sendActive_capturing,
            List.filterMap_cons, PlaneCmd.switch?, lastSwitch_cons]
      | _ =>
          simp only [Broker.onCommand, Broker.sendActive_cmds, Broker.sendActive_capturing,
            List.filterMap_cons, PlaneCmd.switch?]
  | ticked => simp only [Broker.sendActive_cmds, Broker.sendActive_capturing]
  | _ => rfl

theorem Winding.step (h : s.Winding b) {l : LockLabel J} (met : s.EndsWithPause env l)
    (stepped : s.step env rtc greeters l = some s') : ∃ b', s'.Winding b' := by
  cases l with
  | firstLock id =>
      obtain ⟨t, thread, taken⟩ := Option.bind_eq_some_iff.mp stepped
      split at taken
      · cases taken
      · rename_i early
        cases taken
        exact ⟨b, h.plane, h.off, h.wound.firstLock thread (Bool.eq_false_iff.mpr early)⟩
  | video l choice =>
      simp only [LockedHost.step] at stepped
      split at stepped
      · cases stepped
      · rename_i allowed
        obtain ⟨host, taken, rfl⟩ := Option.map_eq_some_iff.mp stepped
        cases l with
        | signal msg =>
            cases taken
            exact ⟨b, h.plane, h.off, h.wound⟩
        | peerSwitched =>
            cases taken
            exact ⟨b, h.plane, h.off, h.wound⟩
        | send e =>
            cases taken
            exact ⟨b, h.plane, h.off, h.wound⟩
        | driver l =>
            obtain ⟨k, -, rfl⟩ := Option.map_eq_some_iff.mp taken
            exact ⟨b, h.plane, h.off, h.wound⟩
        | handle r started =>
            simp only [VideoHost.step] at taken
            split at taken
            · cases taken
            · rename_i pc ev rest queue
              obtain ⟨-, same⟩ := Option.ite_none_right_eq_some.mp taken
              cases same
              exact ⟨_, h.handle queue met⟩
        | pollGeometry built =>
            obtain ⟨⟨rect, plane⟩, changed, rfl⟩ := Option.map_eq_some_iff.mp taken
            rw [h.plane] at changed
            obtain ⟨-, same⟩ := Option.ite_none_right_eq_some.mp changed
            cases same
            exact ⟨_, rfl, h.off, h.wound.frame rfl (fun _ ended => ended) (fun _ _ _ _ _ off => off)⟩
        | plane l =>
            obtain ⟨⟨plane, frames⟩, moved, rfl⟩ := Option.map_eq_some_iff.mp taken
            rw [h.plane] at moved
            cases l with
            | inProcess l => cases moved
            | broker l =>
                obtain ⟨⟨b', out⟩, turned, same⟩ := Option.map_eq_some_iff.mp moved
                cases same
                refine ⟨b', rfl, fun off => ?_, ?_⟩
                · rw [command_switch greeters turned]
                  exact h.off off
                · simp only [LockedHost.turned, h.plane]
                  refine h.wound.step turned (Bool.not_eq_true _ ▸ allowed) ?_
                  rintro rfl
                  simp only [EndsWithPause, h.plane] at met
                  exact met

omit [DecidableEq J] in
theorem Winding.lockedAtRest (h : s.Winding b) : s.LockedAtRest := by
  intro settled unauthorized p member
  obtain ⟨noCommand, quiet⟩ := settled
  simp only [cmds, h.plane] at noCommand
  have stops : b.capturing = false := by
    have off := h.off unauthorized
    rw [noCommand] at off
    exact off
  have agents : s.agents = b.conns.zip s.threads := by
    simp only [LockedHost.agents, h.plane]
  have listed := member
  rw [agents] at listed
  obtain ⟨id, found⟩ := List.mem_iff_getElem?.mp listed
  obtain ⟨here, thread⟩ := List.getElem?_zip_eq_some.mp found
  cases running : p.1.running with
  | false => exact (h.wound.stopped id p.1 p.2 here thread running).2
  | true =>
      obtain ⟨ready, isOpen, toAgent, ctrl⟩ := quiet p member running
      have rests := h.wound.told id p.1 p.2 here thread running isOpen fun _ => stops
      simp only [AgentConn.staysBusy, AgentConn.switches, ctrl, toAgent] at rests
      exact CaptureThread.busy_eq_false.mp rests ready

omit [DecidableEq J] in
instance (s : LockedHost J D H) (l : LockLabel J) : Decidable (s.EndsWithPause env l) := by
  unfold EndsWithPause
  split
  · split <;> infer_instance
  · split <;> infer_instance
  · infer_instance

omit [DecidableEq J] in
instance (s : LockedHost J D H) : Decidable s.Settled := inferInstanceAs (Decidable (_ ∧ _))

/-- A gate that is found unlocked, and an inhibitor that starts. -/
def unlocked : GateChoice where
  enabled := true
  locked := false
  spawned := true

def plays (ls : List (VideoLabel String)) : List (LockLabel String) := ls.map (.video · unlocked)

/-- An agent connects, takes over and locks its session. -/
def joins (id : Nat) : List (LockLabel String) :=
  plays [.plane (.broker (.accept 1000 [] 0 0 none)), .plane (.broker (.read id)),
    .plane (.broker .event)] ++ [.firstLock id]

def relays (id n : Nat) : List (LockLabel String) :=
  plays (List.replicate n (.plane (.broker .command)) ++
    List.replicate n (.plane (.broker (.agent id .receive))) ++
    List.replicate n (.plane (.broker (.agent id (.control true)))))

/-- An accepted viewer has the session unlocked. -/
def watches : List (LockLabel String) :=
  joins 0 ++ plays (VideoHost.connects "a=fingerprint:sha-256 AB" ++ VideoHost.greets) ++ relays 0 2

def lockStart : LockedHost String Unit Unit := ⟨VideoHost.sampleStart (.broker .new), []⟩

/-- The connection is lost, and the session handles that. -/
def leaves : List (LockLabel String) :=
  plays [.driver .commandsDone, .driver (.event (.connectionStateChange .disconnected)),
    .driver (.eventsDone none .rejected), .handle .sample true]

/-- Nothing is left to do and nobody watches, yet a session is unlocked and its inhibitor held. -/
def LeftOpen (s : LockedHost J D H) : Prop :=
  s.Settled ∧ s.authorized = false ∧
    ∃ p ∈ s.agents, p.2.gate.enabled = true ∧ p.2.gate.locked = false ∧ p.2.gate.idleInhibit = true

omit [DecidableEq J] in
instance (s : LockedHost J D H) : Decidable s.LeftOpen := inferInstanceAs (Decidable (_ ∧ _))

omit [DecidableEq J] in
theorem LeftOpen.not_lockedAtRest (h : s.LeftOpen) : ¬ s.LockedAtRest := by
  intro locked
  obtain ⟨settled, unauthorized, p, member, enabled, unlocked, -⟩ := h
  exact Bool.noConfusion (unlocked.symm.trans (locked settled unauthorized p member enabled).1)

end LockedHost
end ReachMyDevice
