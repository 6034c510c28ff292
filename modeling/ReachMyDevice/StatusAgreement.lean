import ReachMyDevice.Lib.Machine
import ReachMyDevice.HostSession

/-!
# The reported status of a host session

The embedding application sees the session through the statuses it reports.
-/
namespace ReachMyDevice
open Machines

variable {J D H : Type}

def statuses (effects : List HostEffect) : List HostStatus :=
  effects.filterMap fun
    | .status s => some s
    | _ => none

namespace HostSession

theorem releaseAll_statuses (s : HostSession D H) (r : Readings) :
    statuses (s.releaseAll r).2 = [] := by
  unfold releaseAll
  split <;> rfl

theorem handleInput_statuses (env : HostEnv D H) (s : HostSession D H) (r : Readings)
    (event : Option InputEvent) : statuses (s.handleInput env r event).2 = [] := by
  unfold handleInput
  split <;> rfl

theorem handleViewOnly_statuses (s : HostSession D H) (r : Readings) (enabled : Bool) :
    statuses (s.handleViewOnly r enabled).2 = [] := by
  unfold handleViewOnly
  split
  · exact releaseAll_statuses _ r
  · rfl

theorem handleHello_statuses (env : HostEnv D H) (s : HostSession D H) (r : Readings) (major : Nat)
    (h : Hello) : statuses (s.handleHello env r major h).2 = [] := by
  by_cases passes : s.helloPasses env r major h
  · rw [handleHello_passes passes]
    rfl
  · obtain ⟨t, ack, -, same⟩ := handleHello_fails passes
    rw [same]
    rfl

theorem dispatch_statuses (env : HostEnv D H) (s : HostSession D H) (r : Readings) (major : Nat)
    (p : Payload) : statuses (s.dispatch env r major p).2 = [] := by
  cases p with
  | hello h => exact handleHello_statuses env s r major h
  | input event => exact handleInput_statuses env s r event
  | viewOnly enabled => exact handleViewOnly_statuses s r enabled
  | _ => rfl

theorem fileEffects_statuses (out : List FileOut) : statuses (out.map fileEffect) = [] := by
  simp only [statuses, List.filterMap_map, List.filterMap_eq_nil_iff]
  intro o _
  cases o <;> rfl

/-- Only the event loop reports, never the handler of a control message. -/
theorem handleControl_statuses (env : HostEnv D H) (s : HostSession D H) (r : Readings)
    (bytes : Wire) : statuses (s.handleControl env r bytes).2 = [] := by
  unfold handleControl
  split
  · rfl
  · rfl
  · split
    · rfl
    · split
      · rfl
      · split
        · exact fileEffects_statuses _
        · exact dispatch_statuses env s r _ _

theorem handleControl_wasAuthorized (env : HostEnv D H) (s : HostSession D H) (r : Readings)
    (bytes : Wire) : (s.handleControl env r bytes).1.wasAuthorized = s.wasAuthorized := by
  cases carried : hello? bytes with
  | none =>
      rcases handleControl_other env s r carried with dropped | ⟨-, same⟩
      · rw [dropped]
      · exact same.wasAuthorized
  | some m =>
      rw [handleControl_hello env s r carried]
      exact handleHello_wasAuthorized env s r m.1 m.2

end HostSession

/-- A session with the last status it has reported. -/
structure Reported (D H : Type) where
  session : HostSession D H
  last : HostStatus

def lastStatus (last : HostStatus) (effects : List HostEffect) : HostStatus :=
  (statuses effects).getLast?.getD last

theorem lastStatus_silent {last : HostStatus} {effects : List HostEffect}
    (silent : statuses effects = []) : lastStatus last effects = last := by
  rw [lastStatus, silent]
  rfl

theorem lastStatus_reported {last : HostStatus} {effects : List HostEffect} (s : HostStatus) :
    lastStatus last (effects ++ [.status s]) = s := by
  simp [lastStatus, statuses]

namespace Reported

def start (injector : Option Injector) (downloadDir : String) (disk : D) : Reported D H where
  session := .new injector downloadDir disk
  last := .waiting

def step (env : HostEnv D H) (sdp : J → Option String) (s : Reported D H)
    (i : HostSession.Input J) : Option (Reported D H) :=
  let r := s.session.turn env sdp i
  some { session := r.1, last := lastStatus s.last r.2 }

def machine (env : HostEnv D H) (sdp : J → Option String) :
    Machine (Reported D H) (HostSession.Input J) where
  init s := ∃ injector downloadDir disk, s = start injector downloadDir disk
  step := step env sdp

def Agrees (s : Reported D H) : Prop := s.last = .active ↔ s.session.authorized = true

instance (s : Reported D H) : Decidable s.Agrees := inferInstanceAs (Decidable (_ ↔ _))

/-- The flag is cleared by a `Disconnected` only: no `Connected` and no failing `Hello`
is handled while it is set. -/
def ClearedByDisconnect (env : HostEnv D H) (s : Reported D H) : HostSession.Input J → Prop
  | .event .connected _ => s.session.authorized = false
  | .event (.data bytes) r =>
    match HostSession.hello? bytes with
    | some (major, h) => s.session.authorized = true → s.session.helloPasses env r major h
    | none => True
  | _ => True

instance (env : HostEnv D H) (s : Reported D H) (i : HostSession.Input J) :
    Decidable (ClearedByDisconnect env s i) := by
  unfold ClearedByDisconnect
  split
  · infer_instance
  · split <;> infer_instance
  · infer_instance

/-- The edge that `wasAuthorized` remembers is the flag itself. -/
structure Settled (s : Reported D H) : Prop where
  agrees : s.Agrees
  edge : s.session.wasAuthorized = s.session.authorized

theorem Settled.data {env : HostEnv D H} {s : Reported D H} {r : Readings} {bytes : Wire}
    (h : Settled s)
    (kept : s.session.authorized = true → (s.session.handleControl env r bytes).1.authorized = true) :
    Settled { session := (s.session.onData env r bytes).1,
              last := lastStatus s.last (s.session.onData env r bytes).2 } := by
  have silent := HostSession.handleControl_statuses env s.session r bytes
  have edge := HostSession.handleControl_wasAuthorized env s.session r bytes
  cases before : s.session.authorized with
  | true =>
      have after := kept before
      have was : (s.session.handleControl env r bytes).1.wasAuthorized = true :=
        edge.trans (h.edge.trans before)
      rw [HostSession.onData_silent fun _ => was, lastStatus_silent silent]
      exact ⟨h.agrees.trans (by rw [before, after]), was.trans after.symm⟩
  | false =>
      have was : (s.session.handleControl env r bytes).1.wasAuthorized = false :=
        edge.trans (h.edge.trans before)
      cases after : (s.session.handleControl env r bytes).1.authorized with
      | true =>
          rw [HostSession.onData_reports after was, lastStatus_reported]
          exact ⟨⟨fun _ => after, fun _ => rfl⟩, after.symm⟩
      | false =>
          rw [HostSession.onData_silent (by simp [after]), lastStatus_silent silent]
          exact ⟨h.agrees.trans (by rw [before, after]), was.trans after.symm⟩

theorem start_settled (injector : Option Injector) (downloadDir : String) (disk : D) :
    Settled (start (H := H) injector downloadDir disk) :=
  ⟨⟨fun active => HostStatus.noConfusion active, fun authorized => Bool.noConfusion authorized⟩, rfl⟩

theorem Settled.cleared {session : HostSession D H} {last : HostStatus}
    (authorized : session.authorized = false) (edge : session.wasAuthorized = false)
    (inactive : last ≠ .active) : Settled { session, last } :=
  ⟨⟨fun active => absurd active inactive, fun set => by simp [authorized] at set⟩,
    edge.trans authorized.symm⟩

theorem Settled.inactive {s : Reported D H} (h : Settled s) (cleared : s.session.authorized = false) :
    s.last ≠ .active := fun active => by simp [h.agrees.mp active] at cleared

theorem onDisconnected_lastStatus (last : HostStatus) (s : HostSession D H) (r : Readings) :
    lastStatus last (s.onDisconnected r).2 = .ended := by
  simp [HostSession.onDisconnected, lastStatus, statuses]

theorem Settled.step {env : HostEnv D H} {sdp : J → Option String} {s s' : Reported D H}
    {i : HostSession.Input J} (h : Settled s) (met : ClearedByDisconnect env s i)
    (taken : Reported.step env sdp s i = some s') : Settled s' := by
  cases taken
  cases i with
  | signal msg => exact ⟨h.agrees, h.edge⟩
  | geometryChanged rect built => exact ⟨h.agrees, h.edge⟩
  | event ev r =>
      cases ev with
      | localSignal msg => exact ⟨h.agrees, h.edge⟩
      | connected => exact .cleared rfl rfl (h.inactive met)
      | disconnected =>
          obtain ⟨authorized, edge⟩ := HostSession.onDisconnected_cleared s.session r
          refine .cleared authorized edge ?_
          rw [HostSession.turn, HostSession.onEvent, onDisconnected_lastStatus]
          exact HostStatus.noConfusion
      | data bytes =>
          refine h.data fun authorized => ?_
          rw [HostSession.handleControl_authorized, HostSession.verdict]
          cases carried : HostSession.hello? bytes with
          | none => exact authorized
          | some m =>
              simp only [ClearedByDisconnect, carried] at met
              simpa using met authorized
      | video annexb tsHint => exact ⟨h.agrees, h.edge⟩
      | keyframeRequested => exact ⟨h.agrees, h.edge⟩

/-- The step that breaks the condition breaks the agreement. -/
theorem Settled.agrees_step {env : HostEnv D H} {sdp : J → Option String} {s s' : Reported D H}
    {i : HostSession.Input J} (h : Settled s) (taken : Reported.step env sdp s i = some s') :
    s'.Agrees ↔ ClearedByDisconnect env s i := by
  refine ⟨fun agrees => ?_, fun met => (h.step met taken).agrees⟩
  have stale (authorized : s.session.authorized = true) (cleared : s'.session.authorized = false)
      (last : s'.last = s.last) : False := by
    have := agrees.mp (last.trans (h.agrees.mpr authorized))
    simp [cleared] at this
  cases taken
  unfold ClearedByDisconnect
  split
  · exact Bool.eq_false_iff.mpr fun authorized => stale authorized rfl rfl
  · rename_i bytes r
    split
    · rename_i major hello carried
      intro authorized
      by_contra fails
      have cleared : (s.session.handleControl env r bytes).1.authorized = false := by
        simp [HostSession.handleControl_authorized, HostSession.verdict, carried, fails]
      have quiet : s.session.onData env r bytes = s.session.handleControl env r bytes :=
        HostSession.onData_silent (by simp [cleared])
      have silent := HostSession.handleControl_statuses env s.session r bytes
      refine stale authorized ?_ ?_
      · simp only [HostSession.turn, HostSession.onEvent, quiet, cleared]
      · simp only [HostSession.turn, HostSession.onEvent, quiet, lastStatus_silent silent]
    · trivial
  · trivial

theorem settled_run {env : HostEnv D H} {sdp : J → Option String} {s : Reported D H}
    (run : (machine env sdp).ReachableBy (ClearedByDisconnect env) s) : Settled s := by
  refine run.invariant ?_ ?_
  · rintro s ⟨injector, downloadDir, disk, rfl⟩
    exact start_settled injector downloadDir disk
  · intro s i s' h met taken
    exact h.step met taken

/-- A wrong password in a second `Hello` takes the authorization away; `Active` stays. -/
theorem wrong_password_stays_active : ∃ s : Reported Unit Unit,
    (machine sampleEnv some).Reachable s ∧
      s.last = .active ∧ s.session.authorized = false ∧ ¬ s.Agrees :=
  Machine.exists_reachableBy (machine sampleEnv some) _ ⟨none, "", (), rfl⟩
    (HostSession.authorizes ++ [.event (.data (sampleHello "SHA-256 AB" "burrito")) .sample]) _ (by decide)

end Reported
end ReachMyDevice
