import ReachMyDevice.FileHandling
import ReachMyDevice.ViewOnly

/-!
# What a turn does to the zoom and to the transfers
-/
namespace ReachMyDevice

variable {J D H : Type}

namespace HostSession

/-- The rectangle that a message asks for. -/
def zoom? : Wire → Option SetZoom
  | some { payload := some (.setZoom z), .. } => some z
  | _ => none

/-- The rectangle that an event sets. -/
def zoomed (s : HostSession D H) : TransportEvent J → Option CropRect
  | .data bytes =>
    if s.authorized then (zoom? bytes).map fun z => (CropRect.ofSetZoom z).sanitized else none
  | _ => none

theorem releaseAll_zoom (s : HostSession D H) (r : Readings) :
    (s.releaseAll r).1.zoom = s.zoom := by
  unfold releaseAll
  split <;> rfl

theorem handleHello_zoom (env : HostEnv D H) (s : HostSession D H) (r : Readings) (major : Nat)
    (h : Hello) : (s.handleHello env r major h).1.zoom = s.zoom := by
  unfold handleHello
  split
  · rfl
  · split
    · rfl
    · split <;> rfl

theorem dispatch_zoom (env : HostEnv D H) (s : HostSession D H) (r : Readings) (major : Nat)
    {p : Payload} (other : ∀ z, p ≠ .setZoom z) : (s.dispatch env r major p).1.zoom = s.zoom := by
  cases p with
  | setZoom z => exact absurd rfl (other z)
  | hello h => exact handleHello_zoom env s r major h
  | input event =>
      simp only [dispatch, handleInput]
      split <;> rfl
  | viewOnly enabled =>
      simp only [dispatch, handleViewOnly]
      split
      · exact releaseAll_zoom _ r
      · rfl
  | _ => rfl

theorem handleControl_zoom (env : HostEnv D H) (s : HostSession D H) (r : Readings) (bytes : Wire) :
    (s.handleControl env r bytes).1.zoom = (s.zoomed (J := J) (.data bytes)).getD s.zoom := by
  rcases bytes with _ | ⟨major, minor, _ | p⟩
  · simp [handleControl, zoomed, zoom?]
  · simp [handleControl, zoomed, zoom?]
  · by_cases asks : ∃ z, p = .setZoom z
    · obtain ⟨z, rfl⟩ := asks
      cases authorized : s.authorized with
      | false => simp [handleControl, authorizationPermits, zoomed, authorized]
      | true =>
          simp [handleControl, authorizationPermits, viewOnlySuppresses, FileTransfers.handle,
            dispatch, zoomed, zoom?, authorized]
    · have other : ∀ z, p ≠ .setZoom z := fun z same => asks ⟨z, same⟩
      have none_ : zoom? (some ⟨major, minor, some p⟩) = none := by
        cases p with
        | setZoom z => exact absurd rfl (other z)
        | _ => rfl
      simp only [zoomed, none_, Option.map_none, ite_self, Option.getD_none]
      simp only [handleControl]
      split
      · rfl
      · split
        · rfl
        · split
          · rfl
          · exact dispatch_zoom env s r major other

theorem onEvent_zoom (env : HostEnv D H) (sdp : J → Option String) (s : HostSession D H)
    (r : Readings) (ev : TransportEvent J) :
    (s.onEvent env sdp r ev).1.zoom = (s.zoomed ev).getD s.zoom := by
  cases ev with
  | data bytes =>
      rw [← handleControl_zoom (J := J) env s r bytes]
      simp only [onEvent, onData]
      split <;> rfl
  | disconnected => exact releaseAll_zoom _ r
  | localSignal msg | connected | video annexb tsHint | keyframeRequested => rfl

/-- The rectangle that a turn sets. -/
def asked (s : HostSession D H) : Input J → Option CropRect
  | .event ev _ => s.zoomed ev
  | _ => none

theorem turn_zoom (env : HostEnv D H) (sdp : J → Option String) (s : HostSession D H)
    (i : Input J) : (s.turn env sdp i).1.zoom = (s.asked i).getD s.zoom := by
  cases i with
  | event ev r => exact onEvent_zoom env sdp s r ev
  | signal msg | geometryChanged rect built => rfl

/-- The message that a turn handles. -/
def message : Input J → Option Payload
  | .event (.data (some ⟨_, _, some p⟩)) _ => some p
  | _ => none

theorem releaseAll_files (s : HostSession D H) (r : Readings) :
    (s.releaseAll r).1.files = s.files := by
  unfold releaseAll
  split <;> rfl

theorem dispatch_files (env : HostEnv D H) (s : HostSession D H) (r : Readings) (major : Nat)
    (p : Payload) : (s.dispatch env r major p).1.files = s.files := by
  cases p with
  | hello h =>
      by_cases passes : s.helloPasses env r major h
      · rw [dispatch, handleHello_passes passes]
        rfl
      · obtain ⟨t, ack, -, same⟩ := handleHello_fails passes
        rw [dispatch, same]
        rfl
  | input event =>
      simp only [dispatch, handleInput]
      split <;> rfl
  | viewOnly enabled =>
      simp only [dispatch, handleViewOnly]
      split
      · exact releaseAll_files _ r
      · rfl
  | _ => rfl

theorem handlePayload_files (env : HostEnv D H) (s : HostSession D H) (r : Readings)
    (major minor : Nat) (p : Payload) :
    (s.handleControl env r (some ⟨major, minor, some p⟩)).1.files =
      if s.authorized then
        ((s.files.handle env.crypto env.disk s.disk p).map (·.1)).getD s.files
      else s.files := by
  by_cases hello : ∃ h, p = .hello h
  · obtain ⟨h, rfl⟩ := hello
    have carried : hello? (some ⟨major, minor, some (.hello h)⟩) = some (major, h) := rfl
    rw [handleControl_hello env s r carried]
    refine (dispatch_files env s r major (.hello h)).trans ?_
    cases s.authorized <;> rfl
  have other : ∀ h, p ≠ .hello h := fun h same => hello ⟨h, same⟩
  cases authorized : s.authorized with
  | false =>
      rw [handleControl_unauthorized env s r major minor authorized other]
      rfl
  | true =>
      rw [if_pos rfl]
      cases file : s.files.handle env.crypto env.disk s.disk p with
      | some r' =>
          obtain ⟨files, disk, out⟩ := r'
          have seen : viewOnlySuppresses p s.viewOnly = false := by
            cases p <;> first | (simp [viewOnlySuppresses]; done) | cases file
          rw [handleControl_file env s r major minor authorized seen file]
          rfl
      | none =>
          cases seen : viewOnlySuppresses p s.viewOnly with
          | false =>
              rw [handleControl_dispatch env s r major minor authorized seen file]
              exact dispatch_files env s r major p
          | true =>
              simp only [handleControl, authorizationPermits, authorized, seen]
              rfl

/-- The files are handled for an authorized viewer only. -/
def filesAfter (env : HostEnv D H) (s : HostSession D H) (i : Input J) : FileTransfers H :=
  match message i with
  | none => s.files
  | some p =>
    if s.authorized then ((s.files.handle env.crypto env.disk s.disk p).map (·.1)).getD s.files
    else s.files

theorem turn_files (env : HostEnv D H) (sdp : J → Option String) (s : HostSession D H)
    (i : Input J) : (s.turn env sdp i).1.files = s.filesAfter env i := by
  cases i with
  | signal msg | geometryChanged rect built => rfl
  | event ev r =>
      cases ev with
      | localSignal msg | connected | video annexb tsHint | keyframeRequested => rfl
      | disconnected => exact releaseAll_files _ r
      | data bytes =>
          have kept : (s.onData env r bytes).1.files = (s.handleControl env r bytes).1.files := by
            simp only [onData]
            split <;> rfl
          refine Eq.trans kept ?_
          obtain _ | ⟨major, minor, _ | p⟩ := bytes
          · rfl
          · rfl
          · exact handlePayload_files env s r major minor p

end HostSession

end ReachMyDevice
