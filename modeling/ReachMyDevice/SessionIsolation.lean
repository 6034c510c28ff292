import ReachMyDevice.EventControls
import ReachMyDevice.HostTurns
import ReachMyDevice.Lib.Histories

/-!
# What one viewer leaves to the next

The state a viewer can change, at the moment the next one is connected, told from
the messages and events before it.
-/
namespace ReachMyDevice
open Machines Histories

variable {J D H : Type}

namespace FileTransfers
variable {crypto : Crypto} {disk : DiskOps D H} {t t' : FileTransfers H} {d d' : D}

/-- The `.part` of an offer can be opened. -/
def Opens (disk : DiskOps D H) (t : FileTransfers H) (d : D) (o : FileOffer) : Prop :=
  (disk.createDirAll d t.downloadDir).2 = .ok () ∧
    ∃ file, (disk.openWrite (disk.createDirAll d t.downloadDir).1 (t.partPath o)).2 = .ok file

/-- A message that ends a transfer, whatever comes of it. -/
def Finishes (id : String) : Payload → Prop
  | .fileComplete c => c.transferId = id
  | .fileCancel c => c.transferId = id
  | _ => False

theorem mem_recvs_handle {p : Payload} {out : List FileOut}
    (handled : t.handle crypto disk d p = some (t', d', out)) (id : String) :
    id ∈ t'.recvs ↔ (∃ o, p = .fileOffer o ∧ o.transferId = id ∧ t.Opens disk d o) ∨
      id ∈ t.recvs ∧ ¬ Finishes id p := by
  have found := handle_cases handled
  cases found with
  | refused reason made => simp [Opens, made, Finishes]
  | unopened reason made opened => simp [Opens, made, opened, Finishes]
  | offered made opened starts =>
      simp only [AList.mem_insert, Payload.fileOffer.injEq, exists_eq_left', Opens, made, opened,
        Except.ok.injEq, exists_eq', Finishes, not_false_eq_true, and_true, true_and]
      rw [eq_comm]
  | ignored known =>
      obtain ⟨c, rfl, -⟩ | ⟨c, rfl, unknown⟩ := known
      · simp [Finishes]
      · simp only [reduceCtorEq, false_and, exists_false, false_or, Finishes]
        refine ⟨fun member => ⟨member, ?_⟩, And.left⟩
        rintro rfl
        exact absurd member (AList.lookup_eq_none.mp unknown)
  | gap known ahead => simp [Finishes]
  | torn known next wrote | appended known next wrote =>
      have there := AList.lookup_isSome.mp (Option.isSome_of_mem known)
      simp only [AList.mem_insert, reduceCtorEq, false_and, exists_false, false_or, Finishes,
        not_false_eq_true, and_true, or_iff_right_iff_imp]
      rintro rfl
      exact there
  | rejected reason known bad => simp [Finishes, AList.mem_erase, and_comm, eq_comm]
  | unnamed reason known full digest renamed =>
      simp [Finishes, AList.mem_erase, and_comm, eq_comm]
  | finished known full digest renamed =>
      simp [Finishes, AList.mem_erase, and_comm, eq_comm]
  | acked => simp [onAck_recvs, Finishes]
  | cancelled => simp [onCancel_recvs, Finishes, AList.mem_erase, and_comm, eq_comm]

theorem sends_handle {p : Payload} {out : List FileOut}
    (handled : t.handle crypto disk d p = some (t', d', out)) (none_ : t.sends = ∅) :
    t'.sends = ∅ := by
  have found := handle_cases handled
  cases found with
  | acked => rw [onAck_sends, none_]
  | cancelled =>
      rw [onCancel_sends, none_]
      rfl
  | _ => exact none_

end FileTransfers

/-- A turn, and the session before it. -/
abbrev Turn (J D H : Type) := HostSession D H × HostSession.Input J

namespace Turn
open HostSession

/-- An authorized viewer asks for a rectangle. -/
def Zooms (e : Turn J D H) : Prop := ∃ rect, e.1.asked e.2 = some rect

/-- It is not the full one. -/
def ZoomsIn (e : Turn J D H) : Prop := ∃ rect, e.1.asked e.2 = some rect ∧ rect ≠ .full

/-- An authorized viewer offers a file, and its `.part` can be opened. -/
def Offers (env : HostEnv D H) (id : String) (e : Turn J D H) : Prop :=
  e.1.authorized = true ∧ ∃ o, message e.2 = some (.fileOffer o) ∧ o.transferId = id ∧
    e.1.files.Opens env.disk e.1.disk o

/-- An authorized viewer completes or cancels a transfer. -/
def Finishes (id : String) (e : Turn J D H) : Prop :=
  e.1.authorized = true ∧ ∃ p, message e.2 = some p ∧ FileTransfers.Finishes id p

/-- A pointer or key event presses a control. -/
def Presses (keymap : Keymap) (c : Control) (e : Turn J D H) : Prop :=
  ∃ i ev ok, e.1.injector = some i ∧ e.1.injectorCall e.2 = some (.inject ev ok) ∧
    i.Presses keymap ok ev c

/-- An event releases it, a `release_all` does, or its uinput device is replaced. -/
def LetsGo (keymap : Keymap) (c : Control) (e : Turn J D H) : Prop :=
  ∃ i, e.1.injector = some i ∧
    match e.1.injectorCall e.2 with
    | some (.inject ev ok) => i.LetsGo keymap ok ev c
    | some (.releaseAll ok) => OsEvent.release c ∈ (i.releaseAll ok).2
    | some (.replace _ _) => ∃ s, i = .uinput s
    | none => False

/-- A `Hello` passes all checks but that of its password. -/
def WrongPassword (env : HostEnv D H) (e : Turn J D H) : Prop :=
  ∃ bytes r major h, e.2 = .event (.data bytes) r ∧ hello? bytes = some (major, h) ∧
    e.1.decision env major h = .ok () ∧ e.1.pwThrottle.locked r.nowAtCheck = false ∧
    verifyConnectPassword env.cfg.connectPassword h.password = false

/-- A `Hello` passes all checks, or the viewer is disconnected. -/
def Settles (env : HostEnv D H) (e : Turn J D H) : Prop :=
  (∃ bytes r major h, e.2 = .event (.data bytes) r ∧ hello? bytes = some (major, h) ∧
    e.1.helloPasses env r major h) ∨ ∃ r, e.2 = .event .disconnected r

end Turn

namespace HostSession

theorem payloadCall_ne_replace (s : HostSession D H) (r : Readings) (p : Payload)
    (rect : Option MonitorRect) (built : NewInjector) :
    s.payloadCall r p ≠ some (.replace rect built) := by
  intro asked
  simp only [payloadCall] at asked
  split at asked
  · split at asked <;> cases asked
  · split at asked <;> cases asked
  · cases asked

theorem recordFailure_ne_new (t : PasswordThrottle) (now : Nat) : t.recordFailure now ≠ .new := by
  intro same
  have failures := congrArg PasswordThrottle.failures same
  have counted : (t.recordFailure now).failures = min (t.failures + 1) (2 ^ 32 - 1) := by
    simp only [PasswordThrottle.recordFailure]
    split <;> rfl
  rw [counted] at failures
  simp only [PasswordThrottle.new] at failures
  omega

theorem handleHello_throttle (env : HostEnv D H) (s : HostSession D H) (r : Readings)
    (major : Nat) (h : Hello) :
    (s.handleHello env r major h).1.pwThrottle ≠ .new ↔
      (s.decision env major h = .ok () ∧ s.pwThrottle.locked r.nowAtCheck = false ∧
        verifyConnectPassword env.cfg.connectPassword h.password = false) ∨
      s.pwThrottle ≠ .new ∧ ¬ s.helloPasses env r major h := by
  simp only [handleHello, helloPasses]
  split
  · rename_i decided
    simp [decided, reject]
  · rename_i decided
    split
    · rename_i locked
      simp [decided, locked, reject]
    · rename_i unlocked
      rw [Bool.not_eq_true] at unlocked
      split
      · rename_i wrong
        rw [Bool.not_eq_true'] at wrong
        simp [decided, unlocked, wrong, reject, recordFailure_ne_new]
      · rename_i right
        rw [Bool.not_eq_true', Bool.not_eq_false] at right
        simp [decided, unlocked, right, accept]

/-- The throttle is fresh unless a password was wrong and nothing settled it. -/
theorem turn_throttle (env : HostEnv D H) (sdp : J → Option String) (s : HostSession D H)
    (i : Input J) :
    (s.turn env sdp i).1.pwThrottle ≠ .new ↔
      Turn.WrongPassword env (s, i) ∨ s.pwThrottle ≠ .new ∧ ¬ Turn.Settles env (s, i) := by
  cases i with
  | signal msg | geometryChanged rect built =>
      simp [turn, onSignal, onGeometryChanged, Turn.WrongPassword, Turn.Settles]
  | event ev r =>
      cases ev with
      | localSignal msg | connected | video annexb tsHint | keyframeRequested =>
          simp [turn, onEvent, onLocalSignal, onConnected, Turn.WrongPassword, Turn.Settles]
      | disconnected => simp [turn, onEvent, onDisconnected, Turn.WrongPassword, Turn.Settles]
      | data bytes =>
          have kept : (s.turn env sdp (.event (.data bytes) r)).1.pwThrottle =
              (s.handleControl env r bytes).1.pwThrottle := by
            simp only [turn, onEvent, onData]
            split <;> rfl
          rw [kept]
          cases carried : hello? bytes with
          | none =>
              have same : (s.handleControl env r bytes).1.pwThrottle = s.pwThrottle := by
                obtain dropped | ⟨-, same⟩ := handleControl_other env s r carried
                · rw [dropped]
                · exact same.pwThrottle
              rw [same]
              simp [Turn.WrongPassword, Turn.Settles, carried]
          | some m =>
              obtain ⟨major, h⟩ := m
              rw [handleControl_hello env s r carried, handleHello_throttle]
              simp [Turn.WrongPassword, Turn.Settles, carried]

/-- A transfer is under way if it was offered and nothing finished it. -/
theorem turn_recvs (env : HostEnv D H) (sdp : J → Option String) (s : HostSession D H)
    (i : Input J) (id : String) :
    id ∈ (s.turn env sdp i).1.files.recvs ↔
      Turn.Offers env id (s, i) ∨ id ∈ s.files.recvs ∧ ¬ Turn.Finishes id (s, i) := by
  rw [turn_files, filesAfter]
  cases carried : message i with
  | none => simp [Turn.Offers, Turn.Finishes, carried]
  | some p =>
      cases authorized : s.authorized with
      | false => simp [Turn.Offers, Turn.Finishes, authorized]
      | true =>
          simp only [Turn.Offers, Turn.Finishes, carried, authorized, if_true, true_and,
            Option.some.injEq, exists_eq_left']
          cases file : s.files.handle env.crypto env.disk s.disk p with
          | some r =>
              obtain ⟨files, disk, out⟩ := r
              exact FileTransfers.mem_recvs_handle file id
          | none => cases p <;> first | (cases file; done) | simp [FileTransfers.Finishes]

theorem turn_sends (env : HostEnv D H) (sdp : J → Option String) {s : HostSession D H}
    (i : Input J) (none_ : s.files.sends = ∅) : (s.turn env sdp i).1.files.sends = ∅ := by
  rw [turn_files, filesAfter]
  split
  · exact none_
  · split
    · rename_i p _ _
      cases file : s.files.handle env.crypto env.disk s.disk p with
      | none => exact none_
      | some r =>
          obtain ⟨files, disk, out⟩ := r
          exact FileTransfers.sends_handle file none_
    · exact none_

end HostSession

/-! ## Runs -/

/-- A session with the controls that are down for the system, and its turns so far. -/
structure Shared (J D H : Type) where
  session : HostSession D H
  held : List Control
  log : List (Turn J D H)

namespace Shared

/-- A replaced uinput device is destroyed, and its keys come up with it. -/
def heldOnReplace (s : Shared J D H) : List Control :=
  match s.session.injector with
  | some (.uinput _) => []
  | _ => s.held

def heldBefore (s : Shared J D H) : HostSession.Input J → List Control
  | .geometryChanged _ _ => s.heldOnReplace
  | _ => s.held

def step (env : HostEnv D H) (sdp : J → Option String) (s : Shared J D H)
    (i : HostSession.Input J) : Option (Shared J D H) :=
  let r := s.session.turn env sdp i
  some {
    session := r.1, held := heldAfter (s.heldBefore i) (osEvents r.2)
    log := s.log ++ [(s.session, i)] }

def machine (env : HostEnv D H) (sdp : J → Option String) :
    Machine (Shared J D H) (HostSession.Input J) where
  init s := ∃ injector downloadDir disk, s = ⟨.new injector downloadDir disk, [], []⟩
  step := step env sdp

/-- Nothing of a viewer is left. -/
structure Initial (s : Shared J D H) : Prop where
  authorized : s.session.authorized = false
  viewOnly : s.session.viewOnly = false
  zoom : s.session.zoom = .full
  held : s.held = []
  throttle : s.session.pwThrottle = .new
  files : s.session.files.idle

/-- The last zoom of the log is the full one, each file that was offered was completed or
cancelled, each key and button that was pressed was let go of, and no password was wrong since a
`Hello` was accepted or a viewer disconnected. -/
structure LeftClean (env : HostEnv D H) (log : List (Turn J D H)) : Prop where
  zoom : ¬ Since Turn.ZoomsIn Turn.Zooms log
  files : ∀ id, ¬ Since (Turn.Offers env id) (Turn.Finishes id) log
  held : ∀ c, ¬ Since (Turn.Presses env.keymap c) (Turn.LetsGo env.keymap c) log
  throttle : ¬ Since (Turn.WrongPassword env) (Turn.Settles env) log

/-- What the turns so far say of the state. -/
structure Told (env : HostEnv D H) (s : Shared J D H) : Prop where
  zoom : s.session.zoom ≠ .full ↔ Since Turn.ZoomsIn Turn.Zooms s.log
  files : ∀ id, id ∈ s.session.files.recvs ↔
    Since (Turn.Offers env id) (Turn.Finishes id) s.log
  sends : s.session.files.sends = ∅
  held : ∀ c, c ∈ s.held ↔ Since (Turn.Presses env.keymap c) (Turn.LetsGo env.keymap c) s.log
  throttle : s.session.pwThrottle ≠ .new ↔ Since (Turn.WrongPassword env) (Turn.Settles env) s.log

variable {env : HostEnv D H} {sdp : J → Option String} {s s' : Shared J D H}
  {i : HostSession.Input J}

theorem heldBefore_eq (s : Shared J D H) (i : HostSession.Input J) :
    s.heldBefore i =
      match s.session.injectorCall i with
      | some (.replace _ _) => s.heldOnReplace
      | _ => s.held := by
  cases i with
  | geometryChanged rect built => rfl
  | signal msg => rfl
  | event ev r =>
      cases ev with
      | data bytes =>
          simp only [heldBefore]
          split
          · rename_i asked
            obtain ⟨p, -, asked⟩ := Option.bind_eq_some_iff.mp asked
            exact (HostSession.payloadCall_ne_replace _ _ _ _ _ asked).elim
          · rfl
      | _ => rfl

theorem mem_held_step (taken : Shared.step env sdp s i = some s') (c : Control) :
    c ∈ s'.held ↔ Turn.Presses env.keymap c (s.session, i) ∨
      c ∈ s.held ∧ ¬ Turn.LetsGo env.keymap c (s.session, i) := by
  cases taken
  have posted := congrArg Prod.snd (HostSession.turn_on env sdp s.session i).1
  simp only at posted
  rw [posted, heldBefore_eq]
  simp only [Turn.Presses, Turn.LetsGo]
  cases s.session.injectorCall i with
  | none => simp [callOn, heldAfter_nil]
  | some made =>
      cases here : s.session.injector with
      | none => cases made <;> simp [callOn, InjectorCall.on, heldAfter_nil, heldOnReplace, here]
      | some inj =>
          cases made with
          | inject ev ok =>
              simp only [callOn, Option.elim_some, InjectorCall.on, Prod.map, id_eq,
                Injector.mem_heldAfter_inject]
              simp
          | releaseAll ok =>
              simp only [callOn, Option.elim_some, InjectorCall.on, Prod.map, id_eq,
                mem_heldAfter_releases (releaseAll_releases inj ok)]
              simp
          | replace rect built =>
              cases inj <;> simp [callOn, InjectorCall.on, heldAfter_nil, heldOnReplace, here]

theorem Told.step (h : Told env s) (taken : Shared.step env sdp s i = some s') : Told env s' := by
  have held := mem_held_step taken
  cases taken
  constructor
  · rw [since_concat_iff, ← h.zoom, HostSession.turn_zoom]
    cases asked : s.session.asked i with
    | none => simp [Turn.ZoomsIn, Turn.Zooms, asked]
    | some rect => simp [Turn.ZoomsIn, Turn.Zooms, asked]
  · intro id
    rw [since_concat_iff, ← h.files id, HostSession.turn_recvs]
  · exact HostSession.turn_sends env sdp i h.sends
  · intro c
    rw [since_concat_iff, ← h.held c, held c]
  · rw [since_concat_iff, ← h.throttle, HostSession.turn_throttle]

theorem told_of_reachable (run : (machine env sdp).Reachable s) : Told env s := by
  refine Machine.Reachable.invariant (I := fun s => Told env s) ?_
    (fun s i s' h taken => Told.step h taken) run
  rintro s ⟨injector, downloadDir, disk, rfl⟩
  constructor
  · exact iff_of_false (fun other => other rfl) not_since_nil
  · exact fun id => iff_of_false (AList.notMem_empty id) not_since_nil
  · rfl
  · exact fun c => iff_of_false List.not_mem_nil not_since_nil
  · exact iff_of_false (fun other => other rfl) not_since_nil

/-- In every run a viewer finds the initial state if those before it have left the host clean, and
only then. -/
theorem initial_iff_leftClean (run : (machine env sdp).Reachable s) {r : Readings}
    (taken : step env sdp s (.event .connected r) = some s') :
    s'.Initial ↔ LeftClean env s.log := by
  have told := told_of_reachable run
  cases taken
  constructor
  · intro initial
    constructor
    · exact fun zoomed => told.zoom.mpr zoomed initial.zoom
    · intro id offered
      have there := (told.files id).mpr offered
      rw [show s.session.files.recvs = ∅ from initial.files.1] at there
      exact AList.notMem_empty id there
    · intro c pressed
      have down := (told.held c).mpr pressed
      rw [show s.held = [] from initial.held] at down
      exact List.not_mem_nil down
    · exact fun wrong => told.throttle.mpr wrong initial.throttle
  · intro clean
    refine ⟨rfl, rfl, ?_, ?_, ?_, ?_, told.sends⟩
    · by_contra zoomed
      exact clean.zoom (told.zoom.mp zoomed)
    · exact List.eq_nil_iff_forall_not_mem.mpr fun c down => clean.held c ((told.held c).mp down)
    · by_contra wrong
      exact clean.throttle (told.throttle.mp wrong)
    · have none_ : ∀ id, id ∉ s.session.files.recvs := fun id there =>
        clean.files id ((told.files id).mp there)
      refine AList.ext (List.eq_nil_iff_forall_not_mem.mpr fun entry member => none_ entry.1 ?_)
      exact AList.mem_keys.mpr (List.mem_map_of_mem member)

instance (s : Shared J D H) : Decidable s.Initial :=
  decidable_of_iff (s.session.authorized = false ∧ s.session.viewOnly = false ∧
      s.session.zoom = .full ∧ s.held = [] ∧ s.session.pwThrottle = .new ∧ s.session.files.idle)
    ⟨fun ⟨a, v, z, h, t, f⟩ => ⟨a, v, z, h, t, f⟩,
      fun h => ⟨h.authorized, h.viewOnly, h.zoom, h.held, h.throttle, h.files⟩⟩

def sampleZoom : Payload := .setZoom { x := 0, y := 0, w := .fin (1 / 2), h := .fin (1 / 2) }

def sampleOffer : Payload := .fileOffer { transferId := "t", name := "f", size := 1, mime := "" }

def x11 : Option Injector := some (.x11 (.new 1 1))

/-- A viewer cancels its transfer and leaves with a key down: the disconnect releases it. -/
theorem initial_iff_leftClean_keyDown : ∃ s s' : Shared String Unit Unit, s.log.length = 7 ∧
    step sampleEnv some s (.event .connected .sample) = some s' ∧ s'.Initial ∧
    LeftClean sampleEnv s.log := by
  let cancel : Payload := .fileCancel { transferId := "t", reason := "" }
  obtain ⟨s, run, turns, initial⟩ := Machine.exists_reachableBy (machine sampleEnv some)
    Machine.Always ⟨x11, "", (), rfl⟩
    (HostSession.authorizes ++ [HostSession.sends sampleOffer,
      HostSession.sends HostSession.keyDown, HostSession.sends cancel,
      .event .disconnected .sample])
    (fun s => s.log.length = 7 ∧
      (step sampleEnv some s (.event .connected .sample)).any (fun s' => decide s'.Initial) = true)
    (by decide +kernel)
  have initial := of_decide_eq_true initial
  exact ⟨s, _, turns, rfl, initial, (initial_iff_leftClean run rfl).mp initial⟩

/-- The zoom and the transfer of a viewer that left meet the next one; the failed passwords
of a viewer whose connection was rebuilt do as well. -/
theorem next_viewer_not_initial :
    (∃ s s' : Shared String Unit Unit, (machine sampleEnv some).Reachable s ∧
      step sampleEnv some s (.event .connected .sample) = some s' ∧
      s'.session.zoom ≠ .full ∧ ¬s'.session.files.idle ∧ ¬s'.Initial) ∧
    ∃ s s' : Shared String Unit Unit, (machine sampleEnv some).Reachable s ∧
      step sampleEnv some s (.event .connected .sample) = some s' ∧
      s'.session.pwThrottle.failures = 1 ∧ s'.held ≠ [] ∧ ¬s'.Initial := by
  constructor
  · obtain ⟨s, run, zoom, files⟩ := Machine.exists_reachableBy (machine sampleEnv some)
      Machine.Always ⟨x11, "", (), rfl⟩
      (HostSession.authorizes ++
        [HostSession.sends sampleZoom, HostSession.sends sampleOffer, .event .disconnected .sample])
      (fun s => s.session.zoom ≠ .full ∧ ¬s.session.files.idle) (by decide +kernel)
    exact ⟨s, _, run, rfl, zoom, files, fun initial => zoom initial.zoom⟩
  · obtain ⟨s, run, failed, held⟩ := Machine.exists_reachableBy (machine sampleEnv some)
      Machine.Always ⟨x11, "", (), rfl⟩
      (HostSession.authorizes ++ [HostSession.sends HostSession.keyDown,
        .event (.data (sampleHello "SHA-256 AB" "burrito")) .sample])
      (fun s => s.session.pwThrottle.failures = 1 ∧ s.held ≠ []) (by decide +kernel)
    exact ⟨s, _, run, rfl, failed, held, fun initial => held initial.held⟩

end Shared
end ReachMyDevice
