import ReachMyDevice.PointerAim
import ReachMyDevice.ViewOnly
import ReachMyDevice.ZoomCoherence

/-!
# Buttons without a position

A button at (0,0) is one without a position. The session maps it through the
zoom rectangle before the injector sees it, and only uinput looks for it.
-/
namespace ReachMyDevice
open Machines ExtendedRational

/-- `width_in_pixels as f64` -/
def isScreenSize : F64 → Bool
  | .fin q => q.den == 1 && decide (0 ≤ q ∧ q < 65536)
  | _ => false

/-- An injector that a Linux host can get. -/
def NewInjector.onScreen : NewInjector → Bool
  | .uinput _ | .unavailable => true
  | .x11 width height => isScreenSize width && isScreenSize height
  | .mac _ _ => false

def HostSession.Input.onScreen {J : Type} : HostSession.Input J → Bool
  | .geometryChanged _ built => built.onScreen
  | .signal _ | .event _ _ => true

/-- The X server keeps the pointer on the screen. -/
def confined (size : F64) (n : Int) : Int := max 0 (min (size.toInt 0 65535 - 1) n)

namespace Injector

/-- Where the pointer is after a move to a position on the axes, or to a pixel. -/
def confine : Injector → Int × Int → Int × Int
  | .x11 s, p => (confined s.width p.1, confined s.height p.2)
  | .uinput _, p | .mac _, p => p

/-- The point at a share of the display: on the axes of uinput, or the pixel of the screen. -/
def pointOf : Injector → ℚ × ℚ → Option (Int × Int)
  | .uinput s, share => s.map (.fin share.1) (.fin share.2)
  | .x11 s, share =>
    match s.width, s.height with
    | .fin width, .fin height =>
      some (confined s.width ⌊share.1 * width⌋, confined s.height ⌊share.2 * height⌋)
    | _, _ => none
  | .mac _, _ => none

end Injector

/-- Where the posted events take the pointer. -/
def pointerAfter (injector : Option Injector) (pointer : Int × Int) (posted : List OsEvent) :
    Int × Int :=
  posted.foldl (fun pointer ev =>
    match injector, ev with
    | some i, .absolute x y => i.confine (x, y)
    | _, _ => pointer) pointer

inductive PointerTurn (J : Type)
  | turn (i : HostSession.Input J)
  /-- The pointer is moved by someone else, or measured in the units of a new injector. -/
  | elsewhere (p : Int × Int)

/-- The loop of a Linux host beside the pointer. -/
def pointedHost {J D H : Type} (env : HostEnv D H) (sdp : J → Option String) :
    Machine (HostSession D H × (Int × Int)) (PointerTurn J) where
  init t := ∃ (rect : Option MonitorRect) (built : NewInjector) (downloadDir : String) (disk : D),
    built.onScreen = true ∧ t.1 = .new (built.build rect) downloadDir disk
  step t
    | .turn i =>
      if i.onScreen then
        some ((t.1.turn env sdp i).1,
          pointerAfter t.1.injector t.2 (osEvents (t.1.turn env sdp i).2))
      else none
    | .elsewhere p => some (t.1, p)

/-- A message with a button of the mouse. -/
def buttonMessage {J : Type} (major minor : Nat) (b : MouseButton) (r : Readings) :
    HostSession.Input J :=
  .event (.data (some ⟨major, minor, some (.input (some (.mouseButton b)))⟩)) r

/-- Nothing keeps the message from the injector. -/
structure HostSession.TakesInput {D H : Type} (s : HostSession D H) : Prop where
  authorized : s.authorized = true
  seeing : s.viewOnly = false

/-- What is asked of a button message: without a position it moves nothing, and with one it is
posted, if the calls to the system succeed, where the position is shown. -/
structure ButtonPlaced {J D H : Type} (env : HostEnv D H) (sdp : J → Option String)
    (t : HostSession D H × (Int × Int)) (b : MouseButton) : Prop where
  stays : (b.x.eq 0 && b.y.eq 0) = true → ∀ major minor r,
    pointerAfter t.1.injector t.2
      (osEvents (t.1.turn env sdp (buttonMessage major minor b r)).2) = t.2
  lands : ∀ x y : ℚ, b.x = .fin x → b.y = .fin y → (x, y) ≠ (0, 0) → t.1.TakesInput →
    ∀ i, t.1.injector = some i → ∀ major minor r, (∀ n, r.osOk n = true) →
      ∃ p c, osEvents (t.1.turn env sdp (buttonMessage major minor b r)).2 =
          [.absolute p.1 p.2, if b.pressed then .press c else .release c] ∧
        (t.1.zoom.sanitized.pointAt x y).bind i.pointOf = some (i.confine p)

/-- Where a rectangle begins. -/
def CropRect.origin (r : CropRect) : F64 × F64 := if r.isFull then (0, 0) else (r.x, r.y)

/-- The condition on the injector: for a button without a position, and for one with. -/
def Injector.Places (i : Injector) (zoom : CropRect) (pointer : Int × Int) (b : MouseButton) :
    Prop :=
  match i with
  | .uinput s =>
    ((b.x.eq 0 && b.y.eq 0) = true →
      (if zoom.origin = (0, 0) then (s.lastX, s.lastY)
        else (s.map zoom.origin.1 zoom.origin.2).getD (s.lastX, s.lastY)) = pointer) ∧
    ∀ x y : ℚ, b.x = .fin x → b.y = .fin y → (x, y) ≠ (0, 0) →
      ∃ share, zoom.pointAt x y = some share ∧
        (share = (0, 0) → s.map 0 0 = some (s.lastX, s.lastY))
  | .x11 s =>
    ((b.x.eq 0 && b.y.eq 0) = true →
      (confined s.width (X11Injector.toPixel zoom.origin.1 s.width),
        confined s.height (X11Injector.toPixel zoom.origin.2 s.height)) = pointer) ∧
    ∀ x y : ℚ, b.x = .fin x → b.y = .fin y → (x, y) ≠ (0, 0) →
      ∃ share, zoom.pointAt x y = some share ∧
        (∀ width, s.width = .fin width → width ≤ 32768 ∨ share.1 * width < 32768) ∧
        ∀ height, s.height = .fin height → height ≤ 32768 ∨ share.2 * height < 32768
  | .mac _ => True

/-! ## Where a button goes -/

namespace CropRect

/-- The corner of the picture is shown where the rectangle begins. -/
theorem remap_corner (r : CropRect) {b : MouseButton} (corner : (b.x.eq 0 && b.y.eq 0) = true) :
    r.sanitized.remap (.mouseButton b) =
      .mouseButton { b with x := r.sanitized.origin.1, y := r.sanitized.origin.2 } := by
  obtain ⟨button, pressed, x, y⟩ := b
  have zero {v : F64} (same : v.eq 0 = true) : v = 0 := by
    cases v with
    | nan => cases same
    | negInf | posInf => cases same
    | fin q => exact of_decide_eq_true same
  rw [Bool.and_eq_true] at corner
  obtain rfl : x = 0 := zero corner.1
  obtain rfl : y = 0 := zero corner.2
  obtain whole | ⟨w, h, inside⟩ := r.sanitized_cases
  · rw [whole]
    rfl
  · generalize r.sanitized = z at inside
    have starts {v size : F64} {q : ℚ} (finite : size = .fin q)
        (place : v = .nan ∨ ∃ p, v = .fin p ∧ 0 ≤ p ∧ p ≤ 1 - q) :
        v.add (.mul 0 size) = v := by
      rw [finite]
      rcases place with rfl | ⟨p, rfl, -⟩
      · rfl
      · exact congrArg Ext.fin (by rw [zero_mul, add_zero])
    simp only [remap, origin, inside.isFull, Bool.false_eq_true, if_false,
      starts inside.width inside.left, starts inside.height inside.top]

end CropRect

/-- A button that is posted places the pointer first. -/
def Injector.buttonPoint : Injector → F64 → F64 → Int × Int
  | .uinput s, x, y =>
    if x.eq 0 && y.eq 0 then (s.lastX, s.lastY) else (s.map x y).getD (s.lastX, s.lastY)
  | .x11 s, x, y => (X11Injector.toPixel x s.width, X11Injector.toPixel y s.height)
  | .mac _, _, _ => (0, 0)

theorem calls_prefix (ok : Nat → Bool) (evs : List OsEvent) : X11Injector.calls ok evs <+: evs := by
  have taken := (List.takeWhile_prefix (l := evs.zipIdx) fun e => ok e.2).map Prod.fst
  rwa [List.zipIdx_map_fst] at taken

theorem inject_button {i : Injector} (linux : i.isLinux = true) (keymap : Keymap)
    (ok : Nat → Bool) (b : MouseButton) :
    ∃ c, (i.inject keymap ok (.mouseButton b)).2 <+: [
        .absolute (i.buttonPoint b.x b.y).1 (i.buttonPoint b.x b.y).2,
        if b.pressed then .press c else .release c] ∧
      ((∀ n, ok n = true) → (i.inject keymap ok (.mouseButton b)).2 = [
        .absolute (i.buttonPoint b.x b.y).1 (i.buttonPoint b.x b.y).2,
        if b.pressed then .press c else .release c]) := by
  cases i with
  | uinput s =>
      refine ⟨.key (UinputInjector.buttonCode b.button), ?_, ?_⟩
      · simp only [Injector.inject, UinputInjector.inject, Injector.buttonPoint, Prod.map, id_eq,
          keyEdge]
        split
        · exact List.prefix_rfl
        · exact List.nil_prefix
      · intro works
        simp only [Injector.inject, UinputInjector.inject, Injector.buttonPoint, Prod.map, id_eq,
          keyEdge, works, if_true]
  | x11 s =>
      refine ⟨.button (X11Injector.buttonNumber b.button), ?_, ?_⟩
      · exact calls_prefix ok _
      · intro works
        simp [Injector.inject, X11Injector.inject, Injector.buttonPoint, buttonEdge,
          X11Injector.calls, works]
  | mac s => cases linux

theorem pointerAfter_nil (injector : Option Injector) (pointer : Int × Int) :
    pointerAfter injector pointer [] = pointer := rfl

/-- Of the two events of a button only the first moves the pointer, if it is posted. -/
theorem pointerAfter_button (i : Injector) (pointer p : Int × Int) (pressed : Bool) (c : Control)
    {posted : List OsEvent}
    (some_ : posted <+: [.absolute p.1 p.2, if pressed then .press c else .release c]) :
    pointerAfter (some i) pointer posted = pointer ∨
      pointerAfter (some i) pointer posted = i.confine p := by
  rcases posted with - | ⟨first, - | ⟨second, rest⟩⟩
  · exact .inl rfl
  · obtain ⟨rfl, -⟩ := List.cons_prefix_cons.mp some_
    exact .inr rfl
  · obtain ⟨rfl, more⟩ := List.cons_prefix_cons.mp some_
    obtain ⟨rfl, none_⟩ := List.cons_prefix_cons.mp more
    obtain rfl := List.prefix_nil.mp none_
    cases pressed <;> exact .inr rfl

/-! ## Pixels -/

theorem confined_toPixel_iff {w q : ℚ} (screen : isScreenSize (.fin w) = true) :
    confined (.fin w) (X11Injector.toPixel (.fin q) (.fin w)) = confined (.fin w) ⌊q * w⌋ ↔
      w ≤ 32768 ∨ q * w < 32768 := by
  obtain ⟨whole, low, high⟩ : w.den = 1 ∧ 0 ≤ w ∧ w < 65536 := by
    simpa [isScreenSize] using screen
  obtain ⟨n, rfl⟩ : ∃ n : Int, w = n := ⟨w.num, (Rat.den_eq_one_iff w).mp whole |>.symm⟩
  have low' : 0 ≤ n := by exact_mod_cast low
  have high' : n < 65536 := by exact_mod_cast high
  have size : (Ext.fin (n : ℚ)).toInt 0 65535 = n := by
    simp only [Ext.toInt, Rat.num_intCast, Rat.den_intCast, Nat.cast_one, Int.tdiv_one]
    omega
  have left : ((n : ℚ) ≤ 32768 ↔ n ≤ 32768) := by exact_mod_cast Iff.rfl
  rw [confined, confined, size, left]
  generalize hz : q * n = z
  have pixel : X11Injector.toPixel (.fin q) (.fin n) = (Ext.fin z).toInt (-2 ^ 15) (2 ^ 15 - 1) := by
    rw [X11Injector.toPixel, ← hz]
    rfl
  rw [pixel]
  by_cases nonneg : 0 ≤ z
  · have below : z < 32768 ↔ ⌊z⌋ < 32768 := by
      rw [Int.floor_lt]
      norm_cast
    have floor : 0 ≤ ⌊z⌋ := Int.floor_nonneg.mpr nonneg
    rw [PointerHost.toInt_nonneg nonneg, below]
    omega
  · have negative := not_le.mp nonneg
    have floor : ⌊z⌋ < 0 := Int.floor_lt.mpr (by exact_mod_cast negative)
    have trunc : (Ext.fin z).toInt (-2 ^ 15) (2 ^ 15 - 1) ≤ 0 := by
      have num : 0 ≤ -z.num := neg_nonneg.mpr (Rat.num_neg.mpr negative).le
      have quotient := Int.tdiv_nonneg num (Int.natCast_nonneg z.den)
      rw [Int.neg_tdiv] at quotient
      simp only [Ext.toInt]
      omega
    refine iff_of_true ?_ (.inr (negative.trans (by norm_num)))
    omega

/-! ## What an injector is asked -/

theorem eq_zero_iff {x y : F64} : (x.eq 0 && y.eq 0) = true ↔ (x, y) = (0, 0) := by
  have zero (v : F64) : v.eq 0 = true ↔ v = 0 := by
    cases v with
    | nan | negInf | posInf => exact iff_of_false (by decide) (by rintro ⟨⟩)
    | fin q => exact decide_eq_true_iff
  rw [Bool.and_eq_true, zero, zero, Prod.mk.injEq]

namespace Injector
variable {i : Injector}

theorem isLinux_of_onScreen (screen : i.geometry.onScreen = true) : i.isLinux = true := by
  cases i with
  | uinput s | x11 s => rfl
  | mac s => cases screen

/-- Without a position, what is posted leaves the pointer exactly if it is there already. -/
theorem stays_iff (screen : i.geometry.onScreen = true) (keymap : Keymap) (pointer : Int × Int)
    (b : MouseButton) :
    (∀ ok, pointerAfter (some i) pointer (i.inject keymap ok (.mouseButton b)).2 = pointer) ↔
      i.confine (i.buttonPoint b.x b.y) = pointer := by
  constructor
  · intro stays
    obtain ⟨c, -, whole⟩ := inject_button (isLinux_of_onScreen screen) keymap (fun _ => true) b
    have here := stays fun _ => true
    rw [whole fun _ => rfl] at here
    rw [← here]
    cases b.pressed <;> rfl
  · intro there ok
    obtain ⟨c, some_, -⟩ := inject_button (isLinux_of_onScreen screen) keymap ok b
    rcases pointerAfter_button i pointer _ b.pressed c some_ with same | same
    · exact same
    · exact same.trans there

theorem map_fin (s : UinputInjector) (x y : ℚ) : ∃ p, s.map (.fin x) (.fin y) = some p := by
  unfold UinputInjector.map
  cases s.rect with
  | none => exact ⟨_, rfl⟩
  | some rect => exact ⟨_, rfl⟩

/-- With one, it lands where the shown point is. -/
theorem lands_iff (screen : i.geometry.onScreen = true) (share : ℚ × ℚ) :
    i.pointOf share = some (i.confine (i.buttonPoint (.fin share.1) (.fin share.2))) ↔
      match i with
      | .uinput s => share = (0, 0) → s.map 0 0 = some (s.lastX, s.lastY)
      | .x11 s =>
        (∀ width, s.width = .fin width → width ≤ 32768 ∨ share.1 * width < 32768) ∧
          ∀ height, s.height = .fin height → height ≤ 32768 ∨ share.2 * height < 32768
      | .mac _ => True := by
  cases i with
  | uinput s =>
      have corner : ((Ext.fin share.1).eq 0 && (Ext.fin share.2).eq 0) = true ↔ share = (0, 0) := by
        rw [eq_zero_iff, Prod.mk.injEq, Prod.ext_iff]
        exact and_congr (Ext.fin.injEq _ _).to_iff (Ext.fin.injEq _ _).to_iff
      simp only [pointOf, confine, buttonPoint, corner]
      by_cases same : share = (0, 0)
      · rw [if_pos same, same]
        exact ⟨fun there _ => there, fun there => there rfl⟩
      · rw [if_neg same]
        obtain ⟨p, place⟩ := map_fin s share.1 share.2
        refine iff_of_true ?_ (absurd · same)
        rw [place]
        rfl
  | x11 s =>
      obtain ⟨across, down⟩ := Bool.and_eq_true_iff.mp screen
      obtain ⟨w, h, keys, buttons⟩ := s
      cases w with
      | nan | negInf | posInf => cases across
      | fin w =>
      cases h with
      | nan | negInf | posInf => cases down
      | fin h =>
          have left := confined_toPixel_iff (q := share.1) across
          have top := confined_toPixel_iff (q := share.2) down
          simp only [pointOf, confine, buttonPoint, Option.some.injEq, Prod.mk.injEq,
            Ext.fin.injEq, forall_eq']
          rw [← left, ← top]
          exact and_congr eq_comm eq_comm
  | mac s => cases screen

end Injector

/-! ## Runs -/

namespace HostSession
variable {J D H : Type} {env : HostEnv D H} {sdp : J → Option String}

theorem callOn_geometry (keymap : Keymap) {injector : Option Injector} (call : Option InjectorCall)
    (kept : ∀ i, injector = some i → i.geometry.onScreen = true)
    (built : ∀ rect built, call = some (.replace rect built) → built.onScreen = true) (i : Injector)
    (after : (callOn keymap injector call).1 = some i) : i.geometry.onScreen = true := by
  cases call with
  | none => exact kept i after
  | some call =>
      cases call with
      | replace rect made =>
          have onScreen := built rect made rfl
          cases made with
          | uinput fromEnv =>
              obtain rfl := Option.some.inj after
              rfl
          | x11 width height =>
              obtain rfl := Option.some.inj after
              exact onScreen
          | mac width height => cases onScreen
          | unavailable => cases after
      | inject ev ok =>
          cases injector with
          | none => cases after
          | some j =>
              obtain rfl := Option.some.inj after
              change (j.inject keymap ok ev).1.geometry.onScreen = true
              rw [inject_geometry]
              exact kept j rfl
      | releaseAll ok =>
          cases injector with
          | none => cases after
          | some j =>
              obtain rfl := Option.some.inj after
              change (j.releaseAll ok).1.geometry.onScreen = true
              rw [releaseAll_geometry]
              exact kept j rfl

/-- The injectors of a Linux host have the size of a screen. -/
theorem onScreen_of_reachable {t : HostSession D H × (Int × Int)}
    (run : (pointedHost env sdp).Reachable t) (i : Injector) (here : t.1.injector = some i) :
    i.geometry.onScreen = true := by
  refine Machine.Reachable.invariant (I := fun t : HostSession D H × (Int × Int) =>
    ∀ i, t.1.injector = some i → i.geometry.onScreen = true) ?_ ?_ run i here
  · rintro t ⟨rect, built, downloadDir, disk, onScreen, made⟩ i here
    rw [made] at here
    have none_kept : ∀ i, (none : Option Injector) = some i → i.geometry.onScreen = true := by
      rintro i ⟨⟩
    refine callOn_geometry env.keymap (some (.replace rect built)) none_kept ?_ i here
    · rintro _ _ ⟨⟩
      exact onScreen
  · intro t a t' kept step i here
    cases a with
    | elsewhere p =>
        obtain rfl := Option.some.inj step
        exact kept i here
    | turn input =>
        obtain ⟨onScreen, rfl⟩ :=
          Option.ite_none_right_eq_some.mp step |>.imp_right Option.some.inj
        have done := congrArg Prod.fst (turn_on env sdp t.1 input).1
        refine callOn_geometry env.keymap _ kept ?_ i (done.symm.trans here)
        intro rect built call
        rw [injectorCall_replace call] at onScreen
        exact onScreen

/-- What a button message asks of the injector. -/
theorem osEvents_buttonMessage (s : HostSession D H) (major minor : Nat) (b : MouseButton)
    (r : Readings) : osEvents (s.turn env sdp (buttonMessage major minor b r)).2 =
      (callOn env.keymap s.injector (if s.authorized && !s.viewOnly then
        some (.inject (s.zoom.sanitized.remap (.mouseButton b)) r.osOk) else none)).2 :=
  congrArg Prod.snd (turn_on env sdp s (buttonMessage major minor b r)).1

variable (env sdp) in
theorem osEvents_takes {s : HostSession D H} (takes : s.TakesInput) {i : Injector}
    (here : s.injector = some i) (major minor : Nat) (b : MouseButton) (r : Readings) :
    osEvents (s.turn env sdp (buttonMessage major minor b r)).2 =
      (i.inject env.keymap r.osOk (s.zoom.sanitized.remap (.mouseButton b))).2 := by
  rw [osEvents_buttonMessage, takes.authorized, takes.seeing, here]
  rfl

theorem osEvents_drops {s : HostSession D H} (drops : ¬ (s.TakesInput ∧ s.injector.isSome))
    (major minor : Nat) (b : MouseButton) (r : Readings) :
    osEvents (s.turn env sdp (buttonMessage major minor b r)).2 = [] := by
  rw [osEvents_buttonMessage]
  split
  next open_ =>
    rw [Bool.and_eq_true, Bool.not_eq_true'] at open_
    cases here : s.injector with
    | none => rfl
    | some i => exact absurd ⟨⟨open_.1, open_.2⟩, by rw [here]; rfl⟩ drops
  next => rfl

end HostSession

/-- A button without a position. -/
theorem stays_places {i : Injector} (screen : i.geometry.onScreen = true) (keymap : Keymap)
    (zoom : CropRect) (pointer : Int × Int) {b : MouseButton}
    (corner : (b.x.eq 0 && b.y.eq 0) = true) :
    (∀ ok, pointerAfter (some i) pointer
      (i.inject keymap ok (zoom.sanitized.remap (.mouseButton b))).2 = pointer) ↔
      match i with
      | .uinput s =>
        (if zoom.sanitized.origin = (0, 0) then (s.lastX, s.lastY)
          else (s.map zoom.sanitized.origin.1 zoom.sanitized.origin.2).getD (s.lastX, s.lastY)) =
            pointer
      | .x11 s =>
        (confined s.width (X11Injector.toPixel zoom.sanitized.origin.1 s.width),
          confined s.height (X11Injector.toPixel zoom.sanitized.origin.2 s.height)) = pointer
      | .mac _ => True := by
  rw [zoom.remap_corner corner, Injector.stays_iff screen]
  cases i with
  | uinput s => simp only [Injector.confine, Injector.buttonPoint, eq_zero_iff, Prod.mk.eta]
  | x11 s => exact Iff.rfl
  | mac s => cases screen

/-- A button with one. -/
theorem lands_places {i : Injector} (screen : i.geometry.onScreen = true) (keymap : Keymap)
    (zoom : CropRect) {b : MouseButton} {x y : ℚ} (left : b.x = .fin x) (top : b.y = .fin y)
    {ok : Nat → Bool} (works : ∀ n, ok n = true) :
    (∃ p c, (i.inject keymap ok (zoom.remap (.mouseButton b))).2 =
        [.absolute p.1 p.2, if b.pressed then .press c else .release c] ∧
      (zoom.pointAt x y).bind i.pointOf = some (i.confine p)) ↔
      ∃ share, zoom.pointAt x y = some share ∧
        i.pointOf share = some (i.confine (i.buttonPoint (.fin share.1) (.fin share.2))) := by
  obtain ⟨button, pressed, _, _⟩ := b
  obtain rfl : _ = Ext.fin x := left
  obtain rfl : _ = Ext.fin y := top
  cases shown : zoom.pointAt x y with
  | none =>
      constructor
      · rintro ⟨p, c, -, ⟨⟩⟩
      · rintro ⟨share, ⟨⟩, -⟩
  | some share =>
      have remapped := (CropRect.remap_pointAt shown).2 ⟨button, pressed, 0, 0⟩
      obtain ⟨c, -, posted⟩ := inject_button (Injector.isLinux_of_onScreen screen) keymap ok
        ⟨button, pressed, .fin share.1, .fin share.2⟩
      rw [remapped, posted works, Option.bind_some]
      constructor
      · rintro ⟨p, c', same, there⟩
        have place := (List.cons.inj same).1
        rw [OsEvent.absolute.injEq] at place
        refine ⟨share, rfl, ?_⟩
        rw [there, Prod.ext place.1 place.2]
      · rintro ⟨_, ⟨⟩, there⟩
        exact ⟨_, c, rfl, there⟩

theorem Injector.places_iff {i : Injector} (screen : i.geometry.onScreen = true) (keymap : Keymap)
    (zoom : CropRect) (pointer : Int × Int) (b : MouseButton) :
    i.Places zoom.sanitized pointer b ↔
      ((b.x.eq 0 && b.y.eq 0) = true → ∀ ok, pointerAfter (some i) pointer
        (i.inject keymap ok (zoom.sanitized.remap (.mouseButton b))).2 = pointer) ∧
      ∀ x y : ℚ, b.x = .fin x → b.y = .fin y → (x, y) ≠ (0, 0) →
        ∃ share, zoom.sanitized.pointAt x y = some share ∧
          i.pointOf share = some (i.confine (i.buttonPoint (.fin share.1) (.fin share.2))) := by
  have stays := stays_places screen keymap zoom pointer (b := b)
  have lands := Injector.lands_iff screen
  cases i with
  | uinput s | x11 s =>
      refine and_congr (forall_congr' fun corner => (stays corner).symm) ?_
      exact forall₅_congr fun x y _ _ _ =>
        exists_congr fun share => and_congr_right fun _ => (lands share).symm
  | mac s => cases screen

/-- In every run, a button message is treated as its position asks exactly if the gates let none
through or the injector meets the condition. -/
theorem button_placed_iff {J D H : Type} {env : HostEnv D H} {sdp : J → Option String}
    (t : HostSession D H × (Int × Int)) (run : (pointedHost env sdp).Reachable t)
    (b : MouseButton) : ButtonPlaced env sdp t b ↔
      (t.1.TakesInput → ∀ i, t.1.injector = some i → i.Places t.1.zoom.sanitized t.2 b) := by
  by_cases drops : ¬ (t.1.TakesInput ∧ t.1.injector.isSome)
  · refine iff_of_true ⟨?_, ?_⟩ ?_
    · intro _ major minor r
      rw [HostSession.osEvents_drops drops, pointerAfter_nil]
    · intro x y _ _ _ takes i here
      exact absurd ⟨takes, by rw [here]; rfl⟩ drops
    · intro takes i here
      exact absurd ⟨takes, by rw [here]; rfl⟩ drops
  obtain ⟨takes, exists_⟩ := not_not.mp drops
  obtain ⟨i, here⟩ := Option.isSome_iff_exists.mp exists_
  have screen := HostSession.onScreen_of_reachable run i here
  have posted := HostSession.osEvents_takes env sdp takes here
  have places := Injector.places_iff screen env.keymap t.1.zoom t.2 b
  have lands {x y : ℚ} (left : b.x = .fin x) (top : b.y = .fin y) {ok : Nat → Bool}
      (works : ∀ n, ok n = true) := lands_places screen env.keymap t.1.zoom.sanitized left top works
  constructor
  · rintro placed - i' here'
    obtain rfl := Option.some.inj (here.symm.trans here')
    refine places.mpr ⟨fun corner ok => ?_, fun x y left top other => ?_⟩
    · have same := placed.stays corner 0 0 { Readings.sample with osOk := ok }
      rwa [posted, here] at same
    · have works : ∀ n, Readings.sample.osOk n = true := fun _ => rfl
      have there := placed.lands x y left top other takes i here 0 0 .sample works
      rw [posted] at there
      exact (lands left top works).mp there
  · intro met
    obtain ⟨stays, shown⟩ := places.mp (met takes i here)
    constructor
    · intro corner major minor r
      rw [posted, here]
      exact stays corner r.osOk
    · intro x y left top other _ i' here' major minor r works
      obtain rfl := Option.some.inj (here.symm.trans here')
      rw [posted]
      exact (lands left top works).mpr (shown x y left top other)

/-- A viewer is accepted, and then sends messages. -/
def buttonRun (payloads : List Payload) : List (PointerTurn String) :=
  (HostSession.authorizes ++ payloads.map HostSession.sends).map .turn

def plainRelease : MouseButton := { button := 1, pressed := false, x := 0, y := 0 }

/-- At the end of a drag over the whole picture the release stays where the drag went. -/
theorem button_placed_iff_drag :
    ∃ t, (pointedHost sampleEnv (some : String → Option String)).Reachable t ∧
      t.2 = (32767, 32767) ∧ ButtonPlaced sampleEnv (some : String → Option String) t plainRelease := by
  obtain ⟨t, run, pointer, injector, zoom⟩ := Machine.exists_reachableBy
    (pointedHost sampleEnv (some : String → Option String)) Machine.Always
    (s := (.new (NewInjector.build none (.uinput none)) "" (), (0, 0)))
    ⟨none, .uinput none, "", (), rfl, rfl⟩
    (buttonRun [.input (some (.mouseMove { x := .fin (1 / 2), y := .fin (1 / 2) }))])
    (fun t => t.2 = (32767, 32767) ∧
      t.1.injector = some (.uinput ⟨none, [], 32767, 32767⟩) ∧ t.1.zoom = .full)
    (by decide +kernel)
  refine ⟨t, run, pointer, (button_placed_iff t run plainRelease).mpr ?_⟩
  intro _ i here
  cases injector.symm.trans here
  rw [zoom, pointer]
  refine ⟨fun _ => rfl, ?_⟩
  intro x y left top other
  cases left
  cases top
  exact absurd rfl other

/-- Whether a release without a position moves the pointer from one place to another. -/
def Jumps (t : HostSession Unit Unit × (Int × Int)) (a b : Int × Int) : Prop :=
  t.2 = a ∧ pointerAfter t.1.injector t.2
    (osEvents (t.1.turn sampleEnv (some : String → Option String)
      (buttonMessage 1 7 plainRelease .sample)).2) = b

instance (t : HostSession Unit Unit × (Int × Int)) (a b : Int × Int) : Decidable (Jumps t a b) :=
  inferInstanceAs (Decidable (_ ∧ _))

theorem Jumps.not_placed {t : HostSession Unit Unit × (Int × Int)} {a b : Int × Int}
    (jumps : Jumps t a b) (apart : b ≠ a) :
    ¬ ButtonPlaced sampleEnv (some : String → Option String) t plainRelease := by
  intro placed
  have stays := placed.stays rfl 1 7 .sample
  rw [jumps.2, jumps.1] at stays
  exact apart stays

/-- The pointer jumps to the corner of the shown region with uinput, and with X11 to the corner of
the screen also without a zoom. -/
theorem release_jumps :
    (∃ t, (pointedHost sampleEnv (some : String → Option String)).Reachable t ∧
      Jumps t (49151, 49151) (32767, 32767) ∧
      ¬ ButtonPlaced sampleEnv (some : String → Option String) t plainRelease) ∧
    ∃ t, (pointedHost sampleEnv (some : String → Option String)).Reachable t ∧
      Jumps t (50, 50) (0, 0) ∧
      ¬ ButtonPlaced sampleEnv (some : String → Option String) t plainRelease := by
  constructor
  · obtain ⟨t, run, jumps⟩ := Machine.exists_reachableBy
      (pointedHost sampleEnv (some : String → Option String)) Machine.Always
      (s := (.new (NewInjector.build none (.uinput none)) "" (), (0, 0)))
      ⟨none, .uinput none, "", (), rfl, rfl⟩
      (buttonRun [.setZoom ⟨.fin (1 / 2), .fin (1 / 2), .fin (1 / 2), .fin (1 / 2)⟩,
        .input (some (.mouseMove { x := .fin (1 / 2), y := .fin (1 / 2) }))])
      (fun t => Jumps t (49151, 49151) (32767, 32767)) (by decide +kernel)
    exact ⟨t, run, jumps, jumps.not_placed (by decide)⟩
  · obtain ⟨t, run, jumps⟩ := Machine.exists_reachableBy
      (pointedHost sampleEnv (some : String → Option String)) Machine.Always
      (s := (.new (NewInjector.build none (.x11 (.fin 100) (.fin 100))) "" (), (0, 0)))
      ⟨none, .x11 (.fin 100) (.fin 100), "", (), rfl, rfl⟩
      (buttonRun [.input (some (.mouseMove { x := .fin (1 / 2), y := .fin (1 / 2) }))])
      (fun t => Jumps t (50, 50) (0, 0)) (by decide +kernel)
    exact ⟨t, run, jumps, jumps.not_placed (by decide)⟩

end ReachMyDevice
