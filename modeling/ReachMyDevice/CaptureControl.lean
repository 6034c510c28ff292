import ReachMyDevice.Capture
import ReachMyDevice.Lib.Machine

/-!
# The capture controller's record

The record of the display and of the cursor setting is written before the
session is started anew for it, and stays as written when the platform refuses.
-/
namespace ReachMyDevice
open Machines

/-- A call, with the platform's answer when it is asked for a session. -/
inductive CaptureCall
  | resume (started : Bool)
  | pause
  | select (id : Nat) (started : Bool)
  | setShowCursor (visible started : Bool)

namespace CaptureController
variable {c : CaptureController}

def call (c : CaptureController) : CaptureCall → CaptureController
  | .resume started => c.resume started
  | .pause => c.pause
  | .select id started => c.select id started
  | .setShowCursor visible started => c.setShowCursor visible started

/-- A live session captures what the record says. -/
def Coherent (c : CaptureController) : Prop :=
  ∀ s, c.handle = some s → s.display = c.current ∧ s.showCursor = c.showCursor

def SameRecord (c c' : CaptureController) : Prop :=
  c'.current = c.current ∧ c'.showCursor = c.showCursor

/-- The call asks for a session in the place of the live one, and the platform refuses. -/
def Fails (c : CaptureController) : CaptureCall → Prop
  | .resume _ | .pause => False
  | .select id started =>
    c.handle.isSome ∧ id ≠ c.current ∧ id < max c.displays.length 1 ∧ started = false
  | .setShowCursor visible started =>
    c.handle.isSome ∧ visible ≠ c.showCursor ∧ started = false

instance (a : CaptureCall) : Decidable (c.Fails a) := by
  cases a <;> unfold Fails <;> infer_instance

theorem coherent_none (idle : c.handle = none) : c.Coherent := by
  intro s live
  exact absurd (idle.symm.trans live) (by simp)

theorem coherent_startCapture : (c.startCapture true).Coherent := by
  intro s live
  obtain rfl := Option.some.inj live
  exact ⟨rfl, rfl⟩

/-- A session that takes the place of the live one captures what the record says by then. -/
theorem coherent_restart {started : Bool} (well : c.handle.isSome → started ≠ false) :
    Coherent (if c.handle.isNone then c else c.startCapture started) := by
  split
  next idle => exact coherent_none (Option.isNone_iff_eq_none.mp idle)
  next live =>
    rw [Option.isNone_iff_eq_none, ← ne_eq, Option.ne_none_iff_isSome] at live
    cases started with
    | true => exact coherent_startCapture
    | false => exact absurd rfl (well live)

theorem Coherent.resume (h : c.Coherent) (started : Bool) : (c.resume started).Coherent := by
  unfold CaptureController.resume
  split
  · exact h
  · cases started with
    | true => exact coherent_startCapture
    | false => exact h

/-! ## What `select` and `set_show_cursor` do -/

theorem select_other {id : Nat} (other : id ≠ c.current) (known : id < max c.displays.length 1)
    (started : Bool) : c.select id started =
      if c.handle.isNone then { c with current := id }
      else { c with current := id }.startCapture started := by
  rw [CaptureController.select, if_neg other, if_neg (Nat.not_le.mpr known)]

theorem setShowCursor_other {visible : Bool} (other : visible ≠ c.showCursor) (started : Bool) :
    c.setShowCursor visible started =
      if c.handle.isNone then { c with showCursor := visible }
      else { c with showCursor := visible }.startCapture started := by
  rw [CaptureController.setShowCursor, if_neg other.symm]

theorem Coherent.call {a : CaptureCall} (h : c.Coherent) (well : ¬ c.Fails a) :
    (c.call a).Coherent := by
  cases a with
  | resume started => exact h.resume started
  | pause => exact coherent_none rfl
  | select id started =>
      by_cases same : id = c.current
      · rwa [CaptureController.call, select, if_pos same]
      by_cases unknown : max c.displays.length 1 ≤ id
      · rwa [CaptureController.call, select, if_neg same, if_pos unknown]
      · rw [CaptureController.call, select_other same (Nat.not_le.mp unknown)]
        refine coherent_restart (c := { c with current := id }) ?_
        intro live refused
        exact well ⟨live, same, Nat.not_le.mp unknown, refused⟩
  | setShowCursor visible started =>
      by_cases same : visible = c.showCursor
      · rwa [CaptureController.call, setShowCursor, if_pos same.symm]
      · rw [CaptureController.call, setShowCursor_other same]
        refine coherent_restart (c := { c with showCursor := visible }) ?_
        intro live refused
        exact well ⟨live, same, refused⟩

/-- A refused call leaves the old session live under the new record. -/
theorem Fails.incoherent {a : CaptureCall} (failed : c.Fails a) (h : c.Coherent) :
    ¬ (c.call a).Coherent := by
  intro after
  cases a with
  | resume started | pause => exact failed
  | select id started =>
      obtain ⟨live, other, known, rfl⟩ := failed
      obtain ⟨s, live⟩ := Option.isSome_iff_exists.mp live
      rw [CaptureController.call, select_other other known, if_neg (by simp [live])] at after
      exact other ((after s live).1.symm.trans (h s live).1)
  | setShowCursor visible started =>
      obtain ⟨live, other, rfl⟩ := failed
      obtain ⟨s, live⟩ := Option.isSome_iff_exists.mp live
      rw [CaptureController.call, setShowCursor_other other, if_neg (by simp [live])] at after
      exact other ((after s live).2.symm.trans (h s live).2)

end CaptureController

/-- The controller from its start, when nothing is captured yet. -/
def captureController : Machine CaptureController CaptureCall where
  init c := c.handle = none
  step c a := some (c.call a)

/-- As long as no call is refused a session, what is captured is what is recorded; and a call does
what it should, before and after, exactly if it is not refused. -/
theorem captures_recorded (c : CaptureController)
    (run : captureController.ReachableBy (fun c a => ¬ c.Fails a) c) :
    c.Coherent ∧ ∀ a, ((c.call a).Coherent ∧ (c.Fails a → c.SameRecord (c.call a)) ↔
      ¬ c.Fails a) := by
  have coherent : c.Coherent := by
    refine run.invariant (I := fun c => c.Coherent)
      (fun c idle => CaptureController.coherent_none idle) ?_
    intro c a c' h well step
    obtain rfl := Option.some.inj step
    exact h.call well
  refine ⟨coherent, fun a => ⟨?_, ?_⟩⟩
  · rintro ⟨after, -⟩ failed
    exact failed.incoherent coherent after
  · intro well
    exact ⟨coherent.call well, fun failed => absurd failed well⟩

/-- Two displays, of which the first is the current. -/
def twoDisplays : CaptureController := .start [⟨0, 1920, 1080⟩, ⟨1, 1280, 720⟩] 0

/-- The second display is selected while the first is captured. -/
theorem captures_recorded_second : ∃ c, captureController.ReachableBy (fun c a => ¬ c.Fails a) c ∧
    c.current = 1 ∧ c.handle = some ⟨1, true⟩ ∧ c.Coherent := by
  obtain ⟨c, run, now, live⟩ := Machine.exists_reachableBy captureController
    (fun c a => ¬ c.Fails a) (s := twoDisplays) rfl [.resume true, .select 1 true]
    (fun c => c.current = 1 ∧ c.handle = some ⟨1, true⟩) (by decide)
  exact ⟨c, run, now, live, (captures_recorded c run).1⟩

/-- The platform refuses the second display: the first stays captured, the second is recorded, and
asking again, when the platform would give it, does nothing. -/
theorem refused_recorded : ∃ c, captureController.Reachable c ∧ c.current = 0 ∧
    c.handle = some ⟨0, true⟩ ∧ c.Fails (.select 1 false) ∧
      (c.call (.select 1 false)).current = 1 ∧
        (c.call (.select 1 false)).handle = some ⟨0, true⟩ ∧
          (c.call (.select 1 false)).call (.select 1 true) = c.call (.select 1 false) :=
  Machine.exists_reachableBy captureController Machine.Always (s := twoDisplays) rfl
    [.resume true] _ (by decide)

end ReachMyDevice
