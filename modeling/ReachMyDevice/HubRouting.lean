import ReachMyDevice.Hub
import ReachMyDevice.Lib.Unwinding

/-!
# Who gets a relayed frame

The hub's entries are compared with the history of registrations, and two hubs
with each other that differ in what other accounts have online.
-/
namespace ReachMyDevice
open Machines

inductive HubEvent
  | registered (c : Connection)
  | unregistered (c : Connection)

/-- The last registration for a device is `c`'s, and `c` has not unregistered since. The newest
event is first. -/
def Latest (deviceId : String) (c : Connection) : List HubEvent → Prop
  | [] => False
  | .registered other :: earlier =>
    if other.signalingId = deviceId then other = c else Latest deviceId c earlier
  | .unregistered other :: earlier => other ≠ c ∧ Latest deviceId c earlier

theorem Latest.signalingId {deviceId : String} {c : Connection} {log : List HubEvent}
    (h : Latest deviceId c log) : c.signalingId = deviceId := by
  induction log with
  | nil => cases h
  | cons e log ih =>
      cases e with
      | registered other =>
          rw [Latest] at h
          split at h
          · rename_i named
            exact h ▸ named
          · exact ih h
      | unregistered other => exact ih h.2

/-- A hub, with what has been registered and unregistered, newest first. -/
structure HubHistory where
  hub : Hub
  log : List HubEvent

namespace HubHistory
variable {J : Type}

def kept (h : HubHistory) (l : HubLabel J) : HubHistory where
  hub := (h.hub.step l).1
  log :=
    match l with
    | .register c => .registered c :: h.log
    | .unregister c => .unregistered c :: h.log
    | _ => h.log

variable (J) in
def machine : Machine HubHistory (HubLabel J) where
  init h := h = ⟨.new, []⟩
  step h l := if h.hub.enabled l then some (h.kept l) else none

/-- An entry is the last registration that has not ended. -/
def Recorded (h : HubHistory) : Prop :=
  ∀ deviceId c, (h.hub.peers deviceId).map (·.tx) = some c ↔ Latest deviceId c h.log

theorem Recorded.step {h : HubHistory} {l : HubLabel J} (r : h.Recorded)
    (enabled : h.hub.enabled l = true) : (h.kept l).Recorded := by
  intro deviceId c
  have stepped : (h.kept l).hub = (h.hub.apply l).1 := by
    show (h.hub.step l).1 = _
    rw [Hub.step, if_pos enabled]
  rw [stepped]
  cases l with
  | register other =>
      show ((Function.update h.hub.peers other.signalingId _) deviceId).map _ = _ ↔
        Latest deviceId c (.registered other :: h.log)
      rw [Latest]
      by_cases named : other.signalingId = deviceId
      · rw [← named, Function.update_self, if_pos rfl]
        exact Option.some_inj
      · rw [Function.update_of_ne (Ne.symm named), if_neg named]
        exact r deviceId c
  | unregister other =>
      show ((h.hub.unregister other.signalingId other).peers deviceId).map _ = _ ↔
        Latest deviceId c (.unregistered other :: h.log)
      rw [Latest, Hub.unregister_peers]
      split
      · -- The entry goes. It was the other connection's.
        rename_i goes
        obtain ⟨rfl, held⟩ := goes
        refine ⟨nofun, fun latest => ?_⟩
        have mine := (r _ c).mpr latest.2
        exact absurd (Option.some.inj (held.symm.trans mine)) latest.1
      · rename_i stays
        refine ⟨fun held => ⟨?_, (r deviceId c).mp held⟩, fun latest => (r deviceId c).mpr latest.2⟩
        rintro rfl
        have named := ((r deviceId other).mp held).signalingId
        exact stays ⟨named.symm, named ▸ held⟩
  | receive other frame => exact r deviceId c
  | receiveEnds other => exact r deviceId c
  | sendEnds other => exact r deviceId c

theorem recorded {h : HubHistory} (run : (machine J).Reachable h) : h.Recorded := by
  refine run.invariant (I := Recorded) ?_ ?_
  · rintro h rfl deviceId c
    exact ⟨nofun, nofun⟩
  · intro h l h' r stepped
    obtain ⟨enabled, eq⟩ := Option.ite_none_right_eq_some.mp stepped
    cases eq
    exact r.step enabled

/-- What a delivery says of the connection that sent and the one that receives. -/
structure Routed (log : List HubEvent) (sender : Connection) (frame : RelayFrame J)
    (d : Delivery J) : Prop where
  latest : Latest frame.target d.receiver log
  sameUser : d.receiver.userId = sender.userId
  text : d.text = ⟨sender.signalingId, frame.payload⟩

theorem relay_ok {s : Hub} {fromUserId : Int} {target : String} {c : Connection}
    (taken : s.relay fromUserId target = .ok c) :
    (s.peers target).map (·.tx) = some c ∧ c.userId = fromUserId := by
  unfold Hub.relay at taken
  split at taken
  · rename_i peer here
    split at taken
    · cases taken
    · rename_i same
      split at taken
      · cases taken
        exact ⟨congrArg (Option.map _) here, peer.owner.trans (not_ne_iff.mp same)⟩
      · cases taken
  · cases taken

theorem delivered_routed {h : HubHistory} (r : h.Recorded) {l : HubLabel J} {d : Delivery J}
    (delivered : d ∈ (h.hub.step l).2) :
    ∃ sender frame, l = .receive sender (some frame) ∧ Routed h.log sender frame d := by
  rw [Hub.step] at delivered
  split at delivered
  · cases l with
    | receive sender frame =>
        cases frame with
        | none => cases delivered
        | some frame =>
            simp only [Hub.apply, Hub.received] at delivered
            split at delivered
            · rename_i receiver taken
              obtain rfl := List.mem_singleton.mp delivered
              obtain ⟨held, user⟩ := relay_ok taken
              exact ⟨sender, frame, rfl, (r ..).mp held, user, rfl⟩
            · cases delivered
    | register c => cases delivered
    | unregister c => cases delivered
    | receiveEnds c => cases delivered
    | sendEnds c => cases delivered
  · cases delivered

/-- The unregistration of another connection leaves an entry alone. -/
theorem unregister_replaced {s : Hub} {c : Connection} {deviceId : String} {peer : Peer}
    (here : s.peers deviceId = some peer) (replaced : peer.tx ≠ c) :
    (s.step (.unregister c : HubLabel J)).1.peers deviceId = some peer := by
  unfold Hub.step
  split
  · show (s.unregister c.signalingId c).peers deviceId = some peer
    rw [Hub.unregister_peers, if_neg]
    · exact here
    · rintro ⟨rfl, held⟩
      rw [here] at held
      exact replaced (Option.some.inj held)
  · exact here

end HubHistory

/-! ## What an account can tell -/

namespace Hub
variable {J : Type} (userId : Int)

/-- The entries of an account. -/
def view (s : Hub) (deviceId : String) : Option Peer :=
  (s.peers deviceId).filter (·.userId == userId)

/-- Two hubs that an account cannot tell apart: its own entries and connections are the same. -/
structure Alike (s t : Hub) : Prop where
  peers : ∀ deviceId, s.view userId deviceId = t.view userId deviceId
  status : ∀ c, c.userId = userId → s.status c = t.status c

/-- Steps of an account are the same. Those of others may differ, as long as they take the same
devices' places. -/
def Related (l l' : HubLabel J) : Prop :=
  if l.connection.userId = userId then l = l'
  else l'.connection.userId ≠ userId ∧ l.registers = l'.registers

/-- A connection registers once. -/
def RegistersOnce (s : Hub) : HubLabel J → Prop
  | .register c => (s.status c).registered = false
  | _ => True

def seenBy (d : Delivery J) : Bool := d.receiver.userId == userId

variable {userId} {s t : Hub}

theorem Related.refl (l : HubLabel J) : Related userId l l := by
  unfold Related
  split
  · rfl
  · rename_i other
    exact ⟨other, rfl⟩

/-- Only entries of the sender's account matter. -/
theorem relay_toOption (target : String) : (s.relay userId target).toOption =
    (s.view userId target).bind fun peer =>
      if (s.status peer.tx).sending then some peer.tx else none := by
  rw [view]
  unfold relay
  split
  · rename_i peer here
    rw [here, Option.filter_some]
    by_cases same : peer.userId = userId
    · rw [if_neg (not_not_intro same), if_pos (beq_iff_eq.mpr same), Option.bind_some]
      split <;> rfl
    · rw [if_pos same, if_neg (mt beq_iff_eq.mp same)]
      rfl
  · rename_i nobody
    rw [nobody]
    rfl

theorem received_some (c : Connection) (frame : RelayFrame J) : s.received c (some frame) =
    ((s.relay c.userId frame.target).toOption.map fun receiver =>
      (⟨receiver, c.signalingId, frame.payload⟩ : Delivery J)).toList := by
  simp only [received]
  cases s.relay c.userId frame.target with
  | ok receiver => rfl
  | error e => rfl

theorem Alike.received (h : Alike userId s t) {c : Connection} (own : c.userId = userId)
    (frame : Option (RelayFrame J)) : s.received c frame = t.received c frame := by
  cases frame with
  | none => rfl
  | some frame =>
      rw [received_some, received_some, own, relay_toOption, relay_toOption, h.peers]
      congr 2
      refine Option.bind_congr fun peer held => ?_
      have same := (Option.filter_eq_some_iff.mp held).2
      rw [h.status peer.tx (peer.owner.trans (beq_iff_eq.mp same))]

/-- A connection of another account sends this one nothing. -/
theorem received_unseen {c : Connection} (other : c.userId ≠ userId)
    (frame : Option (RelayFrame J)) : (s.received c frame).filter (seenBy userId) = [] := by
  refine List.filter_eq_nil_iff.mpr fun d member seen => ?_
  cases frame with
  | none => cases member
  | some frame =>
      simp only [Hub.received] at member
      split at member
      · rename_i receiver taken
        obtain rfl := List.mem_singleton.mp member
        have same := (HubHistory.relay_ok taken).2
        exact other (same.symm.trans (beq_iff_eq.mp seen))
      · cases member

theorem enabled_congr {l : HubLabel J} (same : s.status l.connection = t.status l.connection) :
    s.enabled l = t.enabled l := by
  cases l <;> simp only [HubLabel.connection] at same <;> simp only [enabled, same]

theorem apply_status_other {l : HubLabel J} {c : Connection} (other : c ≠ l.connection) :
    (s.apply l).1.status c = s.status c := by
  cases l with
  | register _ => exact Function.update_of_ne other ..
  | receive _ _ => rfl
  | receiveEnds _ => exact Function.update_of_ne other ..
  | sendEnds _ => exact Function.update_of_ne other ..
  | unregister d =>
      refine (Function.update_of_ne other ..).trans ?_
      rw [unregister_status]

theorem view_tx {c : Connection} (own : c.userId = userId) (deviceId : String) :
    (s.peers deviceId).map (·.tx) = some c ↔ (s.view userId deviceId).map (·.tx) = some c := by
  rw [view]
  cases s.peers deviceId with
  | none => rfl
  | some peer =>
      rw [Option.filter_some]
      by_cases same : peer.userId = userId
      · rw [if_pos (beq_iff_eq.mpr same)]
      · rw [if_neg (mt beq_iff_eq.mp same)]
        refine ⟨fun held => ?_, nofun⟩
        obtain rfl := Option.some.inj held
        exact absurd (peer.owner.symm.trans own) same

theorem view_unregister_own {c : Connection} (own : c.userId = userId) (deviceId : String) :
    (s.unregister c.signalingId c).view userId deviceId =
      if deviceId = c.signalingId ∧ (s.view userId c.signalingId).map (·.tx) = some c then none
      else s.view userId deviceId := by
  rw [view, unregister_peers]
  by_cases goes : deviceId = c.signalingId ∧ (s.peers c.signalingId).map (·.tx) = some c
  · rw [if_pos goes, if_pos ⟨goes.1, (view_tx own _).mp goes.2⟩]
    rfl
  · rw [if_neg goes, if_neg fun other => goes ⟨other.1, (view_tx own _).mpr other.2⟩]
    rfl

theorem view_unregister_other {c : Connection} (other : c.userId ≠ userId) (deviceId : String) :
    (s.unregister c.signalingId c).view userId deviceId = s.view userId deviceId := by
  rw [view, unregister_peers]
  split
  · rename_i goes
    obtain ⟨rfl, held⟩ := goes
    obtain ⟨peer, here, rfl⟩ := Option.map_eq_some_iff.mp held
    rw [view, here, Option.filter_some, if_neg]
    · rfl
    · exact fun same => other (peer.owner.trans (beq_iff_eq.mp same))
  · rfl

/-- What a step of another account leaves of this one's entries: a registration takes a place. -/
theorem other_step {l : HubLabel J} (other : l.connection.userId ≠ userId)
    (once : s.RegistersOnce l) :
    (∀ deviceId, (s.step l).1.view userId deviceId =
      if l.registers = some deviceId then none else s.view userId deviceId) ∧
    (∀ c, c.userId = userId → (s.step l).1.status c = s.status c) ∧
      (s.step l).2.filter (seenBy userId) = [] := by
  have status : ∀ c, c.userId = userId → (s.apply l).1.status c = s.status c :=
    fun c own => apply_status_other fun same => other (same ▸ own)
  rw [step]
  split
  · refine ⟨fun deviceId => ?_, status, ?_⟩
    · cases l with
      | register c =>
          show ((Function.update s.peers c.signalingId _) deviceId).filter _ =
            if some c.signalingId = some deviceId then none else s.view userId deviceId
          by_cases named : deviceId = c.signalingId
          · rw [named, Function.update_self, if_pos rfl, Option.filter_some, if_neg]
            exact fun same => other (beq_iff_eq.mp same)
          · rw [Function.update_of_ne named, if_neg (fun same => named (Option.some.inj same).symm)]
            rfl
      | unregister c => exact view_unregister_other other deviceId
      | receive c frame => rfl
      | receiveEnds c => rfl
      | sendEnds c => rfl
    · cases l with
      | receive c frame => exact received_unseen other frame
      | register c => rfl
      | unregister c => rfl
      | receiveEnds c => rfl
      | sendEnds c => rfl
  · rename_i disabled
    refine ⟨fun deviceId => ?_, fun _ _ => rfl, rfl⟩
    cases l with
    | register c =>
        have idle : s.enabled (.register c : HubLabel J) = true := by
          rw [enabled, show (s.status c).registered = false from once]
          rfl
        exact absurd idle disabled
    | unregister c => rfl
    | receive c frame => rfl
    | receiveEnds c => rfl
    | sendEnds c => rfl

theorem Alike.own_step (h : Alike userId s t) {l : HubLabel J} (own : l.connection.userId = userId) :
    Alike userId (s.step l).1 (t.step l).1 ∧ (s.step l).2 = (t.step l).2 := by
  have enabled := enabled_congr (h.status l.connection own)
  rw [step, step, enabled]
  split
  · have status : ∀ c, c.userId = userId → (s.apply l).1.status c = (t.apply l).1.status c := by
      intro c mine
      by_cases same : c = l.connection
      · have before := h.status c mine
        subst same
        cases l <;> simp only [HubLabel.connection] at before <;>
          simp only [apply, setStatus, register, HubLabel.connection, Function.update_self, before]
      · rw [apply_status_other same, apply_status_other same]
        exact h.status c mine
    refine ⟨⟨fun deviceId => ?_, status⟩, ?_⟩
    · cases l with
      | register c =>
          show ((Function.update s.peers c.signalingId _) deviceId).filter _ =
            ((Function.update t.peers c.signalingId _) deviceId).filter _
          by_cases named : deviceId = c.signalingId
          · rw [named, Function.update_self, Function.update_self]
          · rw [Function.update_of_ne named, Function.update_of_ne named]
            exact h.peers deviceId
      | unregister c =>
          show (s.unregister c.signalingId c).view userId deviceId =
            (t.unregister c.signalingId c).view userId deviceId
          have mine : c.userId = userId := own
          rw [view_unregister_own mine, view_unregister_own mine, h.peers, h.peers]
      | receive c frame => exact h.peers deviceId
      | receiveEnds c => exact h.peers deviceId
      | sendEnds c => exact h.peers deviceId
    · cases l with
      | receive c frame => exact h.received own frame
      | register c => rfl
      | unregister c => rfl
      | receiveEnds c => rfl
      | sendEnds c => rfl
  · exact ⟨h, rfl⟩

theorem Alike.step (h : Alike userId s t) {l l' : HubLabel J} (related : Related userId l l')
    (once : s.RegistersOnce l) (once' : t.RegistersOnce l') :
    Alike userId (s.step l).1 (t.step l').1 ∧
      (s.step l).2.filter (seenBy userId) = (t.step l').2.filter (seenBy userId) := by
  unfold Related at related
  split at related
  · rename_i own
    subst related
    obtain ⟨alike, outputs⟩ := h.own_step own
    exact ⟨alike, congrArg _ outputs⟩
  · rename_i other
    obtain ⟨peers, status, unseen⟩ := other_step other once
    obtain ⟨peers', status', unseen'⟩ := other_step related.1 once'
    refine ⟨⟨fun deviceId => ?_, fun c own => ?_⟩, unseen.trans unseen'.symm⟩
    · refine (peers deviceId).trans (Eq.trans ?_ (peers' deviceId).symm)
      rw [related.2, h.peers]
    · exact (status c own).trans ((h.status c own).trans (status' c own).symm)

/-- A device of another account might as well be offline. -/
theorem alike_without {deviceId : String}
    (elsewhere : ∀ peer, s.peers deviceId = some peer → peer.userId ≠ userId) :
    Alike userId s (s.without deviceId) := by
  refine ⟨fun other => ?_, fun _ _ => rfl⟩
  show _ = ((Function.update s.peers deviceId none) other).filter _
  by_cases named : other = deviceId
  · rw [named, Function.update_self, Option.filter_none]
    refine Option.filter_eq_none_iff.mpr fun peer held same => ?_
    exact elsewhere peer held (beq_iff_eq.mp same)
  · rw [Function.update_of_ne named]
    rfl

end Hub

namespace HubHistory
variable {J : Type}

/-- Frames go to the last connection of the addressed device, of the sender's account, and name
their sender; a replaced connection does not remove the newer one; and whether a device of
another account is online changes nothing that an account is sent in any later run. -/
theorem routing_safe {h : HubHistory} (run : (machine J).Reachable h) :
    (∀ (l : HubLabel J) d, d ∈ (h.hub.step l).2 →
      ∃ sender frame, l = .receive sender (some frame) ∧ Routed h.log sender frame d) ∧
    (∀ c deviceId peer, h.hub.peers deviceId = some peer → peer.tx ≠ c →
      (h.hub.step (.unregister c : HubLabel J)).1.peers deviceId = some peer) ∧
    ∀ userId deviceId, (∀ peer, h.hub.peers deviceId = some peer → peer.userId ≠ userId) →
      ∀ (as bs : List (HubLabel J)), List.Forall₂ (Hub.Related userId) as bs →
        Unwinding.Meets Hub.step Hub.RegistersOnce h.hub as →
        Unwinding.Meets Hub.step Hub.RegistersOnce (h.hub.without deviceId) bs →
        (Unwinding.trace Hub.step h.hub as).filter (Hub.seenBy userId) =
          (Unwinding.trace Hub.step (h.hub.without deviceId) bs).filter (Hub.seenBy userId) := by
  refine ⟨fun l d delivered => delivered_routed (recorded run) delivered,
    fun c deviceId peer here replaced => unregister_replaced here replaced, ?_⟩
  intro userId deviceId elsewhere as bs schedule met met'
  have consistent : ∀ s t (l l' : HubLabel J), Hub.Alike userId s t → Hub.Related userId l l' →
      Hub.RegistersOnce s l → Hub.RegistersOnce t l' → _ :=
    fun s t l l' alike related once once' => alike.step related once once'
  exact Unwinding.unwinding consistent (Hub.alike_without elsewhere) schedule met met'

def phone : Connection := ⟨0, "phone", 1⟩

def laptop (channel : Nat) : Connection := ⟨channel, "laptop", 1⟩

def tablet : Connection := ⟨3, "tablet", 2⟩

/-- A laptop comes back before its old socket is gone, and is what the phone reaches. The phone
cannot tell whether another account's tablet is there. -/
theorem routing_safe_reconnect : ∃ h, (machine String).Reachable h ∧
    (h.hub.step (.receive phone (some ⟨"laptop", "hi"⟩))).2 =
      [⟨laptop 2, "phone", "hi"⟩] ∧
    Routed h.log phone ⟨"laptop", "hi"⟩ ⟨laptop 2, "phone", "hi"⟩ ∧
    (Unwinding.trace Hub.step h.hub [.receive phone (some ⟨"tablet", "hi"⟩)]).filter
        (Hub.seenBy 1) =
      (Unwinding.trace Hub.step (h.hub.without "tablet")
        [.receive phone (some ⟨"tablet", "hi"⟩)]).filter (Hub.seenBy 1) := by
  obtain ⟨h, run, delivered, elsewhere⟩ := Machine.exists_reachableBy (machine String)
    Machine.Always (s := ⟨.new, []⟩) rfl
    [.register phone, .register (laptop 1), .register (laptop 2), .register tablet,
      .receiveEnds (laptop 1), .unregister (laptop 1)]
    (fun h => (h.hub.step (.receive phone (some ⟨"laptop", "hi"⟩))).2 =
      [⟨laptop 2, "phone", "hi"⟩] ∧ (h.hub.peers "tablet").all (·.userId != 1) = true) (by decide)
  have safe := routing_safe run
  obtain ⟨sender, frame, same, routed⟩ := safe.1 (.receive phone (some ⟨"laptop", "hi"⟩))
    ⟨laptop 2, "phone", "hi"⟩ (delivered ▸ List.mem_singleton_self _)
  cases same
  refine ⟨h, run, delivered, routed, safe.2.2 1 "tablet" (fun peer here same => ?_) _ _
    (List.forall₂_same.mpr fun l _ => Hub.Related.refl l) ⟨trivial, trivial⟩ ⟨trivial, trivial⟩⟩
  rw [here, Option.all_some, same] at elsewhere
  cases elsewhere

end HubHistory
end ReachMyDevice
