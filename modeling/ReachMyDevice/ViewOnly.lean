import ReachMyDevice.InjectorSlot
import ReachMyDevice.Lib.Unwinding

/-!
# View-only

What each turn of the host loop asks of the injector: nothing but releases while
the session is view-only, and never anything for a message that came while no
viewer was authorized.
-/
namespace ReachMyDevice
open Machines Unwinding

variable {J D H : Type}

def NewInjector.isLinux : NewInjector → Bool
  | .uinput _ | .x11 _ _ | .unavailable => true
  | .mac _ _ => false

def Injector.isLinux : Injector → Bool
  | .uinput _ | .x11 _ => true
  | .mac _ => false

/-- What a call does to the injector in place, and what is posted. -/
def InjectorCall.on (keymap : Keymap) (injector : Option Injector) :
    InjectorCall → Option Injector × List OsEvent
  | .inject ev ok =>
    match injector with
    | none => (none, [])
    | some i => ((i.inject keymap ok ev).map some id)
  | .releaseAll ok =>
    match injector with
    | none => (none, [])
    | some i => ((i.releaseAll ok).map some id)
  | .replace rect built => (built.build rect, [])

def callOn (keymap : Keymap) (injector : Option Injector) (call : Option InjectorCall) :
    Option Injector × List OsEvent :=
  call.elim (injector, []) (·.on keymap injector)

namespace HostSession

/-- What a message of the viewer asks of the injector. -/
def payloadCall (s : HostSession D H) (r : Readings) : Payload → Option InjectorCall
  | .input (some ev) =>
    if s.authorized && !s.viewOnly then some (.inject (s.zoom.sanitized.remap ev) r.osOk) else none
  | .viewOnly true => if s.authorized then some (.releaseAll r.osOk) else none
  | _ => none

def injectorCall (s : HostSession D H) : Input J → Option InjectorCall
  | .geometryChanged rect built => some (.replace rect built)
  | .event .disconnected r => some (.releaseAll r.osOk)
  | .event (.data bytes) r => (bytes.bind (·.payload)).bind (s.payloadCall r)
  | _ => none

/-- The flag after a message. -/
def payloadViewOnly (s : HostSession D H) : Payload → Bool
  | .viewOnly enabled => if s.authorized then enabled else s.viewOnly
  | _ => s.viewOnly

def viewOnlyAfter (s : HostSession D H) : Input J → Bool
  | .event .connected _ | .event .disconnected _ => false
  | .event (.data bytes) _ => ((bytes.bind (·.payload)).map s.payloadViewOnly).getD s.viewOnly
  | _ => s.viewOnly

/-! ## What a turn does to the injector -/

theorem fileEffects_osEvents (out : List FileOut) : osEvents (out.map fileEffect) = [] := by
  rw [osEvents, List.flatMap_eq_nil_iff]
  intro effect member
  obtain ⟨o, -, rfl⟩ := List.mem_map.mp member
  cases o <;> rfl

theorem osEvents_append (a b : List HostEffect) : osEvents (a ++ b) = osEvents a ++ osEvents b :=
  List.flatMap_append

theorem releaseAll_on (keymap : Keymap) (s : HostSession D H) (r : Readings) :
    ((s.releaseAll r).1.injector, osEvents (s.releaseAll r).2) =
      InjectorCall.on keymap s.injector (.releaseAll r.osOk) ∧
    (s.releaseAll r).1.viewOnly = s.viewOnly := by
  unfold releaseAll
  cases here : s.injector with
  | none => exact ⟨by rw [here]; rfl, rfl⟩
  | some i => exact ⟨Prod.ext rfl (List.append_nil _), rfl⟩

theorem handleInput_on (env : HostEnv D H) (s : HostSession D H) (r : Readings) (ev : InputEvent) :
    ((s.handleInput env r (some ev)).1.injector, osEvents (s.handleInput env r (some ev)).2) =
      InjectorCall.on env.keymap s.injector (.inject (s.zoom.sanitized.remap ev) r.osOk) ∧
    (s.handleInput env r (some ev)).1.viewOnly = s.viewOnly := by
  unfold handleInput
  cases here : s.injector with
  | none => exact ⟨by simp only [here]; rfl, rfl⟩
  | some i => exact ⟨Prod.ext rfl (List.append_nil _), rfl⟩

theorem handleInput_none (env : HostEnv D H) (s : HostSession D H) (r : Readings) :
    s.handleInput env r none = (s, []) := by
  unfold handleInput
  cases s.injector <;> rfl

theorem handleHello_on (env : HostEnv D H) (s : HostSession D H) (r : Readings) (major : Nat)
    (h : Hello) :
    (s.handleHello env r major h).1.injector = s.injector ∧
      osEvents (s.handleHello env r major h).2 = [] ∧
      (s.handleHello env r major h).1.viewOnly = s.viewOnly := by
  by_cases passes : s.helloPasses env r major h
  · rw [handleHello_passes passes]
    exact ⟨rfl, rfl, rfl⟩
  · obtain ⟨t, ack, -, same⟩ := handleHello_fails passes
    rw [same]
    exact ⟨rfl, rfl, rfl⟩

/-- A message of a viewer who is not authorized, `Hello` apart. -/
theorem handleControl_unauthorized (env : HostEnv D H) (s : HostSession D H) (r : Readings)
    (major minor : Nat) {p : Payload} (unauthorized : s.authorized = false)
    (other : ∀ h, p ≠ .hello h) :
    s.handleControl env r (some ⟨major, minor, some p⟩) = (s, []) := by
  cases p with
  | hello h => exact absurd rfl (other h)
  | _ => simp [handleControl, authorizationPermits, unauthorized]

theorem handleControl_viewOnly (env : HostEnv D H) (s : HostSession D H) (r : Readings)
    (major minor : Nat) (event : Option InputEvent) (viewOnly : s.viewOnly = true) :
    s.handleControl env r (some ⟨major, minor, some (.input event)⟩) = (s, []) := by
  cases authorized : s.authorized <;>
    simp [handleControl, authorizationPermits, viewOnlySuppresses, viewOnly, authorized]

/-- A message past both gates that is no file transfer. -/
theorem handleControl_dispatch (env : HostEnv D H) (s : HostSession D H) (r : Readings)
    (major minor : Nat) {p : Payload} (authorized : s.authorized = true)
    (seen : viewOnlySuppresses p s.viewOnly = false)
    (noFile : s.files.handle env.crypto env.disk s.disk p = none) :
    s.handleControl env r (some ⟨major, minor, some p⟩) = s.dispatch env r major p := by
  simp [handleControl, authorizationPermits, authorized, seen, noFile]

theorem handleControl_file (env : HostEnv D H) (s : HostSession D H) (r : Readings)
    (major minor : Nat) {p : Payload} {files : FileTransfers H} {disk : D} {out : List FileOut}
    (authorized : s.authorized = true) (seen : viewOnlySuppresses p s.viewOnly = false)
    (file : s.files.handle env.crypto env.disk s.disk p = some (files, disk, out)) :
    s.handleControl env r (some ⟨major, minor, some p⟩) =
      ({ s with files, disk }, out.map fileEffect) := by
  simp [handleControl, authorizationPermits, authorized, seen, file]

/-- One message: what it asks of the injector is done, and the flag follows it. -/
theorem handlePayload_on (env : HostEnv D H) (s : HostSession D H) (r : Readings)
    (major minor : Nat) (p : Payload) :
    ((s.handleControl env r (some ⟨major, minor, some p⟩)).1.injector,
        osEvents (s.handleControl env r (some ⟨major, minor, some p⟩)).2) =
      callOn env.keymap s.injector (s.payloadCall r p) ∧
    (s.handleControl env r (some ⟨major, minor, some p⟩)).1.viewOnly = s.payloadViewOnly p := by
  by_cases hello : ∃ h, p = .hello h
  · obtain ⟨h, rfl⟩ := hello
    have greets : s.handleControl env r (some ⟨major, minor, some (.hello h)⟩) =
        s.handleHello env r major h := handleControl_hello env s r rfl
    rw [greets]
    obtain ⟨injector, quiet, viewOnly⟩ := handleHello_on env s r major h
    rw [injector, quiet, viewOnly]
    exact ⟨rfl, rfl⟩
  have other : ∀ h, p ≠ .hello h := fun h same => hello ⟨h, same⟩
  cases authorized : s.authorized with
  | false =>
      rw [handleControl_unauthorized env s r major minor authorized other]
      cases p with
      | input event => cases event <;> exact ⟨by simp [payloadCall, authorized]; rfl, rfl⟩
      | viewOnly enabled =>
          cases enabled <;>
            exact ⟨by simp [payloadCall, authorized]; rfl, by simp [payloadViewOnly, authorized]⟩
      | _ => exact ⟨rfl, rfl⟩
  | true =>
      cases file : s.files.handle env.crypto env.disk s.disk p with
      | some r' =>
          obtain ⟨files, disk, out⟩ := r'
          have seen : viewOnlySuppresses p s.viewOnly = false := by
            cases p <;> first | (simp [viewOnlySuppresses]; done) | cases file
          rw [handleControl_file env s r major minor authorized seen file, fileEffects_osEvents]
          cases p <;> first | exact ⟨rfl, rfl⟩ | cases file
      | none =>
          cases seen : viewOnlySuppresses p s.viewOnly with
          | true =>
              cases p with
              | input event =>
                  have viewOnly : s.viewOnly = true := by
                    simpa [viewOnlySuppresses] using seen
                  rw [handleControl_viewOnly env s r major minor event viewOnly]
                  cases event <;> exact ⟨by simp [payloadCall, viewOnly]; rfl, rfl⟩
              | _ => simp [viewOnlySuppresses] at seen
          | false =>
              rw [handleControl_dispatch env s r major minor authorized seen file]
              cases p with
              | hello h => exact absurd rfl (other h)
              | input event =>
                  have open_ : s.viewOnly = false := by simpa [viewOnlySuppresses] using seen
                  cases event with
                  | none =>
                      rw [dispatch, handleInput_none]
                      exact ⟨rfl, rfl⟩
                  | some ev =>
                      have done := handleInput_on env s r ev
                      refine ⟨done.1.trans ?_, done.2⟩
                      simp [payloadCall, authorized, open_, callOn]
              | viewOnly enabled =>
                  cases enabled with
                  | true =>
                      have done := releaseAll_on env.keymap { s with viewOnly := true } r
                      refine ⟨done.1.trans ?_, done.2.trans ?_⟩
                      · simp [payloadCall, authorized, callOn]
                      · simp [payloadViewOnly, authorized]
                  | false =>
                      refine ⟨rfl, ?_⟩
                      simp [payloadViewOnly, authorized, dispatch, handleViewOnly]
              | _ => exact ⟨rfl, rfl⟩

theorem onData_on (env : HostEnv D H) (s : HostSession D H) (r : Readings) (bytes : Wire) :
    ((s.onData env r bytes).1.injector, osEvents (s.onData env r bytes).2) =
      ((s.handleControl env r bytes).1.injector, osEvents (s.handleControl env r bytes).2) ∧
    (s.onData env r bytes).1.viewOnly = (s.handleControl env r bytes).1.viewOnly := by
  simp only [onData]
  split
  · exact ⟨Prod.ext rfl ((osEvents_append _ _).trans (List.append_nil _)), rfl⟩
  · exact ⟨rfl, rfl⟩

/-- What a turn does to the injector is the one call it makes. -/
theorem turn_on (env : HostEnv D H) (sdp : J → Option String) (s : HostSession D H) (i : Input J) :
    ((s.turn env sdp i).1.injector, osEvents (s.turn env sdp i).2) =
      callOn env.keymap s.injector (s.injectorCall i) ∧
    (s.turn env sdp i).1.viewOnly = s.viewOnlyAfter i := by
  cases i with
  | signal msg => exact ⟨rfl, rfl⟩
  | geometryChanged rect built => exact ⟨rfl, rfl⟩
  | event ev r =>
      cases ev with
      | localSignal msg => exact ⟨rfl, rfl⟩
      | connected => exact ⟨rfl, rfl⟩
      | video annexb tsHint => exact ⟨rfl, rfl⟩
      | keyframeRequested => exact ⟨rfl, rfl⟩
      | disconnected =>
          have done := releaseAll_on env.keymap
            { s with connected := false, authorized := false, wasAuthorized := false,
                     viewOnly := false } r
          refine ⟨Eq.trans ?_ done.1, done.2⟩
          exact Prod.ext rfl ((osEvents_append _ _).trans (List.append_nil _))
      | data bytes =>
          have done := onData_on env s r bytes
          have message : ((s.handleControl env r bytes).1.injector,
              osEvents (s.handleControl env r bytes).2) =
                callOn env.keymap s.injector (s.injectorCall (.event (.data (J := J) bytes) r)) ∧
              (s.handleControl env r bytes).1.viewOnly =
                s.viewOnlyAfter (.event (.data (J := J) bytes) r) := by
            match bytes with
            | none => exact ⟨rfl, rfl⟩
            | some ⟨_, _, none⟩ => exact ⟨rfl, rfl⟩
            | some ⟨major, minor, some p⟩ => exact handlePayload_on env s r major minor p
          exact ⟨done.1.trans message.1, done.2.trans message.2⟩

end HostSession

/-! ## The Linux backends let go of everything they record -/

theorem build_isLinux {rect : Option MonitorRect} {built : NewInjector} {i : Injector}
    (linux : built.isLinux = true) (made : built.build rect = some i) :
    i.isLinux = true ∧ i.pressed = [] := by
  cases built <;> cases made
  · exact ⟨rfl, rfl⟩
  · exact ⟨rfl, rfl⟩
  · cases linux

theorem inject_isLinux (keymap : Keymap) (i : Injector) (ok : Nat → Bool) (ev : InputEvent) :
    (i.inject keymap ok ev).1.isLinux = i.isLinux := by
  cases i <;> rfl

theorem releaseAll_isLinux (i : Injector) (ok : Nat → Bool) :
    (i.releaseAll ok).1.isLinux = i.isLinux := by
  cases i <;> rfl

theorem releaseAll_pressed {i : Injector} (linux : i.isLinux = true) (ok : Nat → Bool) :
    (i.releaseAll ok).1.pressed = [] := by
  cases i with
  | uinput s => rfl
  | x11 s => rfl
  | mac s => cases linux

/-- When no call fails, everything on record is released. -/
theorem releaseAll_covers {i : Injector} (linux : i.isLinux = true) {ok : Nat → Bool}
    (works : ∀ n, ok n = true) {c : Control} (recorded : c ∈ i.pressed) :
    OsEvent.release c ∈ (i.releaseAll ok).2 := by
  cases i with
  | mac s => cases linux
  | uinput s =>
      simp only [Injector.releaseAll, UinputInjector.releaseAll, Prod.map, id_eq, works, if_true]
      obtain ⟨code, member, rfl⟩ := List.mem_map.mp recorded
      exact List.mem_map.mpr ⟨code, member, rfl⟩
  | x11 s =>
      simp only [Injector.releaseAll, X11Injector.releaseAll, Prod.map, id_eq, works,
        List.filter_true, List.zipIdx_map_fst]
      rcases List.mem_append.mp recorded with key | button
      · obtain ⟨code, member, rfl⟩ := List.mem_map.mp key
        exact List.mem_append_left _ (List.mem_map.mpr ⟨code, member, rfl⟩)
      · obtain ⟨number, member, rfl⟩ := List.mem_map.mp button
        exact List.mem_append_right _ (List.mem_map.mpr ⟨number, member, rfl⟩)

/-! ## Runs of a Linux host -/

namespace HostSession

/-- The system the host runs on gives it no other injectors. -/
def Input.onLinux : Input J → Bool
  | .geometryChanged _ built => built.isLinux
  | .signal _ | .event _ _ => true

def linuxHost (env : HostEnv D H) (sdp : J → Option String) :
    Machine (HostSession D H) (Input J) where
  init s := ∃ (rect : Option MonitorRect) (built : NewInjector) (downloadDir : String) (disk : D),
    built.isLinux = true ∧
    s = .new (built.build rect) downloadDir disk
  step s i := if i.onLinux then some (s.turn env sdp i).1 else none

def Input.carriesInput : Input J → Bool
  | .event (.data (some ⟨_, _, some (.input _)⟩)) _ => true
  | _ => false

/-- An input message that comes while no viewer is authorized. -/
def Ignored (s : HostSession D H) (i : Input J) : Prop :=
  i.carriesInput = true ∧ s.authorized = false

instance (s : HostSession D H) (i : Input J) : Decidable (s.Ignored i) :=
  inferInstanceAs (Decidable (_ ∧ _))

theorem ignored_turn (env : HostEnv D H) (sdp : J → Option String) (s : HostSession D H)
    (i : Input J) (ignored : s.Ignored i) : s.turn env sdp i = (s, []) := by
  obtain ⟨carries, unauthorized⟩ := ignored
  unfold Input.carriesInput at carries
  split at carries
  · simp only [turn, onEvent, onData]
    rw [handleControl_unauthorized env s _ _ _ unauthorized (fun h same => by cases same)]
    simp [unauthorized]
  · cases carries

/-- The record of a Linux injector while the session is view-only. -/
structure Quiet (s : HostSession D H) : Prop where
  linux : ∀ i, s.injector = some i → i.isLinux = true
  empty : s.viewOnly = true → ∀ i, s.injector = some i → i.pressed = []

theorem callOn_isLinux {keymap : Keymap} {injector : Option Injector} {call : Option InjectorCall}
    (linux : ∀ i, injector = some i → i.isLinux = true)
    (builds : ∀ rect built, call = some (.replace rect built) → built.isLinux = true) :
    ∀ i, (callOn keymap injector call).1 = some i → i.isLinux = true := by
  intro i after
  cases call with
  | none => exact linux i after
  | some call =>
      cases call with
      | replace rect built => exact (build_isLinux (builds rect built rfl) after).1
      | inject ev ok =>
          cases injector with
          | none => cases after
          | some j =>
              cases after
              exact (inject_isLinux keymap j ok ev).trans (linux j rfl)
      | releaseAll ok =>
          cases injector with
          | none => cases after
          | some j =>
              cases after
              exact (releaseAll_isLinux j ok).trans (linux j rfl)

/-- Without an inject call an empty record stays empty; a release and a replacement empty it. -/
theorem callOn_pressed {keymap : Keymap} {injector : Option Injector} {call : Option InjectorCall}
    (linux : ∀ i, injector = some i → i.isLinux = true)
    (builds : ∀ rect built, call = some (.replace rect built) → built.isLinux = true)
    (noInject : ∀ ev ok, call ≠ some (.inject ev ok))
    (empty : call = none → ∀ i, injector = some i → i.pressed = []) :
    ∀ i, (callOn keymap injector call).1 = some i → i.pressed = [] := by
  intro i after
  cases call with
  | none => exact empty rfl i after
  | some call =>
      cases call with
      | replace rect built => exact (build_isLinux (builds rect built rfl) after).2
      | inject ev ok => exact absurd rfl (noInject ev ok)
      | releaseAll ok =>
          cases injector with
          | none => cases after
          | some j =>
              cases after
              exact releaseAll_pressed (linux j rfl) ok

theorem injectorCall_builds {s : HostSession D H} {i : Input J} (linux : i.onLinux = true) :
    ∀ rect built, s.injectorCall i = some (.replace rect built) → built.isLinux = true := by
  intro rect built called
  unfold injectorCall at called
  split at called
  · cases called
    exact linux
  · cases called
  · obtain ⟨p, -, asked⟩ := Option.bind_eq_some_iff.mp called
    unfold payloadCall at asked
    split at asked
    · split at asked <;> cases asked
    · split at asked <;> cases asked
    · cases asked
  · cases called

/-- An inject call is that of the message of the turn, past both gates. -/
theorem injectorCall_replace {s : HostSession D H} {i : Input J} {rect : Option MonitorRect}
    {built : NewInjector} (call : s.injectorCall i = some (.replace rect built)) :
    i = .geometryChanged rect built := by
  unfold injectorCall at call
  split at call
  · cases call
    rfl
  · cases call
  · obtain ⟨p, -, asked⟩ := Option.bind_eq_some_iff.mp call
    unfold payloadCall at asked
    split at asked
    · cases Option.ite_none_right_eq_some.mp asked |>.2
    · cases Option.ite_none_right_eq_some.mp asked |>.2
    · cases asked
  · cases call

theorem injectorCall_inject {s : HostSession D H} {i : Input J} {ev : InputEvent}
    {ok : Nat → Bool} (called : s.injectorCall i = some (.inject ev ok)) :
    s.authorized = true ∧ s.viewOnly = false ∧ ∃ major minor raw r,
      i = .event (.data (some ⟨major, minor, some (.input (some raw))⟩)) r ∧
        ev = s.zoom.sanitized.remap raw ∧ ok = r.osOk := by
  unfold injectorCall at called
  split at called
  · cases called
  · cases called
  · rename_i bytes r
    obtain ⟨p, carried, asked⟩ := Option.bind_eq_some_iff.mp called
    unfold payloadCall at asked
    split at asked
    · rename_i raw
      split at asked
      · rename_i gates
        cases asked
        simp only [Bool.and_eq_true, Bool.not_eq_true'] at gates
        match bytes, carried with
        | some ⟨major, minor, _⟩, rfl => exact ⟨gates.1, gates.2, major, minor, raw, r, rfl, rfl, rfl⟩
      · cases asked
    · split at asked <;> cases asked
    · cases asked
  · cases called

/-- The turn that switches to view-only releases. -/
theorem viewOnlyAfter_switch {s : HostSession D H} {i : Input J}
    (after : s.viewOnlyAfter i = true) :
    s.viewOnly = true ∨ ∃ ok, s.injectorCall i = some (.releaseAll ok) := by
  unfold viewOnlyAfter at after
  split at after
  · cases after
  · cases after
  · rename_i bytes r
    cases carried : bytes.bind (·.payload) with
    | none =>
        simp only [carried, Option.map_none, Option.getD_none] at after
        exact .inl after
    | some p =>
        simp only [carried, Option.map_some, Option.getD_some, payloadViewOnly] at after
        split at after
        · split at after
          · rename_i authorized
            refine .inr ⟨r.osOk, ?_⟩
            simp [injectorCall, carried, payloadCall, authorized, after]
          · exact .inl after
        · exact .inl after
  · exact .inl after

theorem quiet_turn (env : HostEnv D H) (sdp : J → Option String) {s : HostSession D H}
    (h : Quiet s) {i : Input J} (linux : i.onLinux = true) : Quiet (s.turn env sdp i).1 := by
  obtain ⟨done, flag⟩ := turn_on env sdp s i
  have injector : (s.turn env sdp i).1.injector =
    (callOn env.keymap s.injector (s.injectorCall i)).1 := congrArg Prod.fst done
  have builds := injectorCall_builds (s := s) linux
  constructor
  · rw [injector]
    exact callOn_isLinux h.linux builds
  · intro viewOnly
    rw [flag] at viewOnly
    rw [injector]
    rcases viewOnlyAfter_switch viewOnly with before | ⟨ok, released⟩
    · refine callOn_pressed h.linux builds (fun ev ok called => ?_) fun _ => h.empty before
      have open_ := (injectorCall_inject called).2.1
      rw [before] at open_
      cases open_
    · refine callOn_pressed h.linux builds (fun ev ok' called => ?_) fun nothing => ?_
      · cases released.symm.trans called
      · cases released.symm.trans nothing

theorem quiet_of_reachable {env : HostEnv D H} {sdp : J → Option String} {s : HostSession D H}
    (run : (linuxHost env sdp).Reachable s) : Quiet s := by
  refine Machine.Reachable.invariant ?_ ?_ run
  · rintro s ⟨rect, built, downloadDir, disk, linux, rfl⟩
    refine ⟨fun i made => (build_isLinux linux made).1, fun viewOnly => ?_⟩
    cases viewOnly
  · intro s i s' h step
    simp only [linuxHost, Option.ite_none_right_eq_some, Option.some.injEq] at step
    obtain ⟨linux, rfl⟩ := step
    exact quiet_turn env sdp h linux

/-- What holds in every state of a Linux host. -/
structure ViewOnlyHolds (env : HostEnv D H) (sdp : J → Option String) (s : HostSession D H) :
    Prop where
  /-- The injector and the events posted are what the call of the turn makes of them. -/
  called : ∀ i : Input J, ((s.turn env sdp i).1.injector, osEvents (s.turn env sdp i).2) =
    callOn env.keymap s.injector (s.injectorCall i)
  empty : s.viewOnly = true → ∀ i, s.injector = some i → i.pressed = []
  injects : ∀ (i : Input J) ev ok, s.injectorCall i = some (.inject ev ok) →
    s.authorized = true ∧ s.viewOnly = false ∧ ∃ major minor raw r,
      i = .event (.data (some ⟨major, minor, some (.input (some raw))⟩)) r ∧
        ev = s.zoom.sanitized.remap raw ∧ ok = r.osOk
  /-- The switch releases all that is on record, as far as the calls succeed. -/
  switches : ∀ i : Input J, s.viewOnly = false → (s.turn env sdp i).1.viewOnly = true →
    ∃ ok, s.injectorCall i = some (.releaseAll ok) ∧ ∀ inj, s.injector = some inj →
      (∀ n, ok n = true) → ∀ c ∈ inj.pressed,
        OsEvent.release c ∈ osEvents (s.turn env sdp i).2
  /-- From here on the run is the same without the input messages of an unauthorized viewer. -/
  ignored : ∀ inputs : List (Input J),
    trace (turn env sdp) s (active (turn env sdp) Ignored s inputs) =
        trace (turn env sdp) s inputs ∧
      final (turn env sdp) s (active (turn env sdp) Ignored s inputs) =
        final (turn env sdp) s inputs

theorem view_only_holds (env : HostEnv D H) (sdp : J → Option String) {s : HostSession D H}
    (run : (linuxHost env sdp).Reachable s) : ViewOnlyHolds env sdp s := by
  have quiet := quiet_of_reachable run
  refine ⟨fun i => (turn_on env sdp s i).1, quiet.empty, fun i ev ok => injectorCall_inject, ?_,
    run_active (ignored_turn env sdp) s⟩
  intro i before after
  obtain ⟨done, flag⟩ := turn_on env sdp s i
  rw [flag] at after
  rcases viewOnlyAfter_switch after with already | ⟨ok, released⟩
  · cases before.symm.trans already
  · refine ⟨ok, released, fun inj here works c recorded => ?_⟩
    have posted : osEvents (s.turn env sdp i).2 =
      (callOn env.keymap s.injector (s.injectorCall i)).2 := congrArg Prod.snd done
    rw [released, here] at posted
    rw [posted]
    exact releaseAll_covers (quiet.linux inj here) works recorded

/-- A key is down when the viewer switches to view-only, and another comes after it. -/
theorem view_only_holds_key_down :
    ∃ s, (linuxHost sampleEnv (some : String → Option String)).Reachable s ∧ s.viewOnly = true ∧
      s.injector = some (.x11 (.new 1 1)) ∧ ViewOnlyHolds sampleEnv some s := by
  obtain ⟨s, run, viewOnly, released⟩ := Machine.exists_reachableBy (linuxHost sampleEnv some)
    Machine.Always (s := .new (NewInjector.build none (.x11 1 1)) "" ())
    ⟨none, .x11 1 1, "", (), rfl, rfl⟩
    (authorizes ++ [sends keyDown, sends (.viewOnly true),
      sends keyDown])
    (fun s => s.viewOnly = true ∧ s.injector = some (.x11 (.new 1 1))) (by decide)
  exact ⟨s, run, viewOnly, released, view_only_holds sampleEnv some run⟩

/-! ## The injector of the host -/

/-- The loop of a host on any system. -/
def loop (env : HostEnv D H) (sdp : J → Option String) :
    Machine (HostSession D H) (Input J) where
  init s := ∃ (rect : Option MonitorRect) (built : NewInjector) (downloadDir : String) (disk : D),
    s = .new (built.build rect) downloadDir disk
  step s i := some (s.turn env sdp i).1

/-- A call moves the slot as it moves the injector of the host. -/
theorem slot_step (keymap : Keymap) (closes : Injector → Bool) (t : InjectorSlot)
    (call : InjectorCall) :
    ∃ t', t.step keymap closes call = some t' ∧ t'.injector = (call.on keymap t.injector).1 := by
  cases call with
  | replace rect built => exact ⟨_, rfl, rfl⟩
  | inject ev ok =>
      simp only [InjectorSlot.step, InjectorCall.on]
      cases t.injector <;> exact ⟨_, rfl, rfl⟩
  | releaseAll ok =>
      simp only [InjectorSlot.step, InjectorCall.on]
      cases t.injector <;> exact ⟨_, rfl, rfl⟩

/-- Every run of a host is, for its injector, a run of the slot. -/
theorem loop_slot {env : HostEnv D H} {sdp : J → Option String} (closes : Injector → Bool)
    {s : HostSession D H} (run : (loop env sdp).Reachable s) :
    ∃ t, (InjectorSlot.machine env.keymap closes).Reachable t ∧ t.injector = s.injector := by
  refine Machine.Reachable.invariant (I := fun s => ∃ t : InjectorSlot,
    (InjectorSlot.machine env.keymap closes).Reachable t ∧ t.injector = s.injector) ?_ ?_ run
  · rintro s ⟨rect, built, downloadDir, disk, rfl⟩
    exact ⟨.start rect built, .start ⟨rect, built, rfl⟩, rfl⟩
  · rintro s i s' ⟨t, reached, same⟩ step
    obtain rfl := Option.some.inj step
    have injector : (s.turn env sdp i).1.injector =
      (callOn env.keymap s.injector (s.injectorCall i)).1 :=
        congrArg Prod.fst (turn_on env sdp s i).1
    rw [injector]
    cases s.injectorCall i with
    | none => exact ⟨t, reached, same⟩
    | some call =>
        obtain ⟨t', next, after⟩ := slot_step env.keymap closes t call
        exact ⟨t', .next reached trivial next, after.trans (by rw [same]; rfl)⟩

end HostSession
end ReachMyDevice
