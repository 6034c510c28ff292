import ReachMyDevice.CapturedOutput
import ReachMyDevice.PointerAim
import ReachMyDevice.ZoomCoherence

/-!
# Where a pointer event of a viewer lands

The session maps its position through the zoom rectangle, and the injector through
the geometry that it was built for. The frames show a display where the capture
finds it.
-/
namespace ReachMyDevice
open Machines ExtendedRational

/-! ## Displays and injectors -/

/-- Where a display is. On macOS the coordinates are those of the one space of all displays; under
Linux they count from the corner of the desktop, that is `dw` by `dh`. -/
structure Place where
  display : Nat
  ox : Rat
  oy : Rat
  mw : Rat
  mh : Rat
  dw : Rat
  dh : Rat
  wide : 0 < mw
  high : 0 < mh
  deriving DecidableEq

/-- The part of the desktop that it is: where it begins and how large it is. -/
def Place.part (p : Place) : (Rat × Rat) × Rat × Rat :=
  ((p.ox / p.dw, p.oy / p.dh), p.mw / p.dw, p.mh / p.dh)

/-- Nothing of it is off the desktop. -/
def Place.OnDesktop (p : Place) : Prop :=
  (0 ≤ p.ox ∧ p.ox + p.mw ≤ p.dw) ∧ 0 ≤ p.oy ∧ p.oy + p.mh ≤ p.dh

instance (p : Place) : Decidable p.OnDesktop := inferInstanceAs (Decidable ((_ ∧ _) ∧ _ ∧ _))

def MonitorRect.part : MonitorRect → Option ((Rat × Rat) × Rat × Rat)
  | ⟨.fin ox, .fin oy, .fin mw, .fin mh, .fin dw, .fin dh⟩ =>
    if 0 < dw ∧ 0 < dh then some ((ox / dw, oy / dh), mw / dw, mh / dh) else none
  | _ => none

/-- A uinput device without a rectangle spans the desktop. -/
def UinputInjector.part (s : UinputInjector) : Option ((Rat × Rat) × Rat × Rat) :=
  s.rect.elim (some ((0, 0), 1, 1)) (·.part)

namespace Injector

/-- Whether an event puts the pointer where a display shows a relative position. The axes of uinput
span the desktop; X counts pixels of the screen it is connected to, which is `main`. -/
def Reaches (main : Nat) (p : Place) (x y : Rat) : Injector → OsEvent → Prop
  | .uinput _, .absolute a b =>
    a = ⌊(p.ox + x * p.mw) / p.dw * absMax⌋ ∧ b = ⌊(p.oy + y * p.mh) / p.dh * absMax⌋
  | .x11 _, .absolute a b => p.display = main ∧ a = ⌊x * p.mw⌋ ∧ b = ⌊y * p.mh⌋
  | .mac _, .cgMouse _ a b => a = .fin (p.ox + x * p.mw) ∧ b = .fin (p.oy + y * p.mh)
  | _, _ => False

/-- The geometry that an injector was built for is that of a display. -/
def Fits (main : Nat) (p : Place) : Injector → Prop
  | .uinput s => s.part = some p.part ∧ p.OnDesktop
  | .x11 s => p.display = main ∧ s.width = .fin p.mw ∧ s.height = .fin p.mh ∧
      p.mw < 32768 ∧ p.mh < 32768
  | .mac s => p.ox = 0 ∧ p.oy = 0 ∧ s.width = .fin p.mw ∧ s.height = .fin p.mh

instance (main : Nat) (p : Place) : ∀ i : Injector, Decidable (i.Fits main p)
  | .uinput _ => inferInstanceAs (Decidable (_ ∧ _))
  | .x11 _ => inferInstanceAs (Decidable (_ ∧ _ ∧ _ ∧ _ ∧ _))
  | .mac _ => inferInstanceAs (Decidable (_ ∧ _ ∧ _ ∧ _))

/-- uinput takes a button at the corner of the display for one without a position. -/
def Takes (x y : Rat) : Injector → InputEvent → Prop
  | .uinput _, .mouseButton _ => (x, y) ≠ (0, 0)
  | _, _ => True

theorem fits_congr {i j : Injector} (same : i.geometry = j.geometry) (main : Nat) (p : Place) :
    i.Fits main p ↔ j.Fits main p := by
  cases i <;> cases j <;> simp only [geometry, NewInjector.uinput.injEq, NewInjector.x11.injEq,
    NewInjector.mac.injEq, reduceCtorEq] at same
  · simp only [Fits, UinputInjector.part, same]
  · simp only [Fits, same]
  · simp only [Fits, same]

/-- A uinput device maps a position to that of the same part of the desktop. -/
theorem map_part {s : UinputInjector} {p : Place} (same : s.part = some p.part)
    (on : p.OnDesktop) {x y : Rat} (left : 0 ≤ x) (right : x ≤ 1) (top : 0 ≤ y) (bottom : y ≤ 1) :
    s.map (.fin x) (.fin y) = some (⌊(p.ox + x * p.mw) / p.dw * absMax⌋,
      ⌊(p.oy + y * p.mh) / p.dh * absMax⌋) := by
  obtain ⟨⟨lowX, highX⟩, lowY, highY⟩ := on
  have inX := Mutter.share_mem lowX highX (by linarith [p.wide]) p.wide.le left right
  have inY := Mutter.share_mem lowY highY (by linarith [p.high]) p.high.le top bottom
  have splitX : (p.ox + x * p.mw) / p.dw = p.ox / p.dw + x * (p.mw / p.dw) := by ring
  have splitY : (p.oy + y * p.mh) / p.dh = p.oy / p.dh + y * (p.mh / p.dh) := by ring
  simp only [UinputInjector.part, Place.part] at same
  cases rect : s.rect with
  | none =>
      simp only [rect, Option.elim_none, Option.some.injEq, Prod.mk.injEq] at same
      obtain ⟨⟨ox, oy⟩, mw, mh⟩ := same
      rw [splitX, splitY, ← ox, ← oy, ← mw, ← mh, mul_one, mul_one, zero_add, zero_add,
        UinputInjector.map, rect]
      simp only [Ext.isFinite, Bool.and_self, if_true, Mutter.toAxis_share left right,
        Mutter.toAxis_share top bottom]
  | some r =>
      rw [rect, Option.elim_some] at same
      unfold MonitorRect.part at same
      split at same
      next ox oy mw mh dw dh =>
        obtain ⟨⟨wide, high⟩, same⟩ := Option.ite_none_right_eq_some.mp same
        simp only [Option.some.injEq, Prod.mk.injEq] at same
        obtain ⟨⟨sameX, sameY⟩, sameW, sameH⟩ := same
        rw [UinputInjector.map, rect]
        simp only [Ext.isFinite, Bool.and_self, if_true,
          Mutter.mapped_share wide sameX sameW left right,
          Mutter.mapped_share high sameY sameH top bottom,
          Mutter.toAxis_share inX.1 inX.2, Mutter.toAxis_share inY.1 inY.2]
      next => cases same

/-- uinput is moved to the mapped position, if there is one. -/
theorem uinput_moves {i : UinputInjector} {keymap : Keymap} {x y : Rat} {ev : InputEvent}
    (here : PointerHost.At x y ev) (takes : (Injector.uinput i).Takes x y ev) {a b : Int}
    (mapped : i.map (.fin x) (.fin y) = some (a, b)) {ok : Nat → Bool} (works : ok 0 = true) :
    (i.inject keymap ok ev).2.head? = some (.absolute a b) := by
  cases ev with
  | mouseMove m =>
      obtain ⟨left, top⟩ := here
      simp [UinputInjector.inject, left, top, mapped, works]
  | mouseButton e =>
      obtain ⟨left, top⟩ := here
      have positioned : ((Ext.fin x).eq 0 && (Ext.fin y).eq 0) = false := by
        rw [Bool.eq_false_iff]
        intro corner
        obtain ⟨sameX, sameY⟩ : Ext.fin x = 0 ∧ Ext.fin y = 0 := by simpa [Ext.eq] using corner
        exact takes (Prod.ext (Ext.fin.inj sameX) (Ext.fin.inj sameY))
      simp [UinputInjector.inject, left, top, positioned, mapped, works]
  | mouseScroll w => exact here.elim
  | key k => exact here.elim

/-- On a display that the injector fits, a pointer event goes to the point at its position. -/
theorem Fits.reaches {i : Injector} {main : Nat} {p : Place} (fits : i.Fits main p)
    (keymap : Keymap) {x y : Rat} (left : 0 ≤ x) (right : x ≤ 1) (top : 0 ≤ y) (bottom : y ≤ 1)
    {ev : InputEvent} (here : PointerHost.At x y ev) (takes : i.Takes x y ev) {ok : Nat → Bool}
    (works : ok 0 = true) :
    ∃ e, (i.inject keymap ok ev).2.head? = some e ∧ i.Reaches main p x y e := by
  cases i with
  | uinput i =>
      have mapped := map_part fits.1 fits.2 left right top bottom
      exact ⟨_, uinput_moves here takes mapped works, rfl, rfl⟩
  | x11 i =>
      obtain ⟨display, width, height, wide, high⟩ := fits
      have pixel : ∀ {v size : Rat}, 0 ≤ v → v ≤ 1 → 0 < size → size < 32768 →
          X11Injector.toPixel (.fin v) (.fin size) = ⌊v * size⌋ := by
        intro v size low atMost positive small
        have below : v * size < 32768 := (mul_le_of_le_one_left positive.le atMost).trans_lt small
        have floored : ⌊v * size⌋ < 32768 := Int.floor_lt.mpr (by exact_mod_cast below)
        refine (PointerHost.toInt_nonneg (mul_nonneg low positive.le)).trans ?_
        omega
      refine ⟨_, PointerHost.x11_moves here works, display, ?_, ?_⟩
      · rw [width, pixel left right p.wide wide]
      · rw [height, pixel top bottom p.high high]
  | mac i =>
      obtain ⟨ox, oy, width, height⟩ := fits
      obtain ⟨kind, moves⟩ : ∃ kind, (i.inject keymap ok ev).2.head? = _ :=
        PointerHost.mac_moves here works
      refine ⟨_, moves, ?_, ?_⟩
      · rw [width, ox, zero_add]
        rfl
      · rw [height, oy, zero_add]
        rfl

end Injector

/-! ## What a rectangle shows is on the display -/

/-- What is shown at a position is on the display. -/
theorem CropRect.pointAt_mem {r : CropRect} {px py x y : Rat} (left : 0 ≤ px) (right : px ≤ 1)
    (top : 0 ≤ py) (bottom : py ≤ 1) (shown : r.sanitized.pointAt px py = some (x, y)) :
    (0 ≤ x ∧ x ≤ 1) ∧ 0 ≤ y ∧ y ≤ 1 := by
  obtain whole | ⟨w, h, inside⟩ := r.sanitized_cases
  · rw [whole] at shown
    cases shown
    exact ⟨⟨left, right⟩, top, bottom⟩
  · obtain ⟨placedX, placedY⟩ := (CropRect.pointAt_sanitized r px py).mp ⟨x, y, shown⟩
    obtain ⟨x0, hx, lowX, highX⟩ := inside.left.resolve_left placedX
    obtain ⟨y0, hy, lowY, highY⟩ := inside.top.resolve_left placedY
    simp only [CropRect.pointAt, inside.isFull, Bool.false_eq_true, if_false, hx, hy, inside.width,
      inside.height, Option.some.injEq, Prod.mk.injEq] at shown
    obtain ⟨rfl, rfl⟩ := shown
    have spanX := mul_nonneg left inside.wide.1.le
    have spanY := mul_nonneg top inside.high.1.le
    have partX := mul_le_of_le_one_left inside.wide.1.le right
    have partY := mul_le_of_le_one_left inside.high.1.le bottom
    exact ⟨⟨by linarith, by linarith⟩, by linarith, by linarith⟩

theorem Injector.Takes.remap {i : Injector} {x y : Rat} {ev : InputEvent} (takes : i.Takes x y ev)
    (r : CropRect) : i.Takes x y (r.remap ev) := by
  unfold CropRect.remap
  split
  · exact takes
  · cases i <;> cases ev <;> exact takes

theorem CropRect.at_remap {r : CropRect} {px py x y : Rat} {ev : InputEvent}
    (shown : r.pointAt px py = some (x, y)) (here : PointerHost.At px py ev) :
    PointerHost.At x y (r.remap ev) := by
  obtain ⟨moves, buttons⟩ := CropRect.remap_pointAt shown
  cases ev with
  | mouseMove m =>
      obtain ⟨mx, my⟩ := m
      obtain ⟨rfl, rfl⟩ := here
      rw [moves]
      exact ⟨rfl, rfl⟩
  | mouseButton b =>
      obtain ⟨button, pressed, bx, «by»⟩ := b
      obtain ⟨rfl, rfl⟩ := here
      exact (buttons ⟨button, pressed, 0, 0⟩) ▸ ⟨rfl, rfl⟩
  | mouseScroll w => exact here.elim
  | key k => exact here.elim

/-! ## Runs -/

namespace VideoPlane

/-- The controller of the capture that is sent, and of which agent. -/
def controller : VideoPlane → Option (Nat × CaptureController)
  | .inProcess p => some (0, p.ctl)
  | .broker b => b.active.bind fun id => (b.conns[id]?).map fun c => (id, c.agent.pipeline.ctl)

/-- The display whose frames are sent, if any are. -/
def shown (p : VideoPlane) : Option Nat := (p.controller.bind (·.2.handle)).map (·.display)

/-- The live session is the one before: where it is replaced, one more session ends. -/
def sameSession (p p' : VideoPlane) : Bool :=
  match p.controller, p'.controller with
  | some (id, c), some (id', c') =>
    id == id' && decide (c'.handle = c.handle) && decide (c'.ending ≤ c.ending)
  | _, _ => false

end VideoPlane

/-- A host and the displays. `place` is what the live session last read of its own. -/
structure AimedHost (J D H : Type) where
  video : VideoHost J D H
  main : Nat
  place : Option Place

inductive AimedLabel (J : Type)
  | video (l : VideoLabel J)
  /-- The live session reads where its display is. -/
  | notice (p : Place)

namespace AimedHost
variable {J D H : Type} {s s' : AimedHost J D H}

def injector (s : AimedHost J D H) : Option Injector := s.video.host.session.injector

/-- Every pointer event at a relative position of the picture goes to the point that the frames show
there. -/
def Lands (env : HostEnv D H) (s : AimedHost J D H) : Prop :=
  ∀ px py : Rat, 0 ≤ px → px ≤ 1 → 0 ≤ py → py ≤ 1 → ∃ x y,
    (s.video.plane.crop s.video.zoom).pointAt px py = some (x, y) ∧
      ∀ p ∈ s.place, ∀ i ∈ s.injector, ∀ ev, PointerHost.At px py ev → i.Takes x y ev →
        ∀ r : Readings, r.osOk 0 = true →
          ∃ e, (osEvents (s.video.host.session.handleInput env r (some ev)).2).head? = some e ∧
            i.Reaches s.main p x y e

/-- What is read of the display fits the injector, and an injector that is rebuilt fits the
display. -/
def Fitting (s : AimedHost J D H) : AimedLabel J → Prop
  | .notice p => ∀ i ∈ s.injector, i.Fits s.main p
  | .video (.pollGeometry built) => ∀ changed ∈ s.video.plane.pollGeometryChanged,
      ∀ i ∈ built.build changed.1, ∀ p ∈ s.place, i.Fits s.main p
  | .video l => s.video.ZoomsFramed l

instance (s : AimedHost J D H) : ∀ l, Decidable (s.Fitting l)
  | .notice p => inferInstanceAs (Decidable (∀ i ∈ s.injector, i.Fits s.main p))
  | .video (.pollGeometry built) =>
    inferInstanceAs (Decidable (∀ changed ∈ s.video.plane.pollGeometryChanged,
      ∀ i ∈ built.build changed.1, ∀ p ∈ s.place, i.Fits s.main p))
  | .video (.handle r started) =>
    inferInstanceAs (Decidable (s.video.ZoomsFramed (.handle r started)))
  | .video (.signal _) | .video .peerSwitched | .video (.send _) | .video (.driver _)
  | .video (.plane _) => .isTrue trivial

variable [DecidableEq J]

def step (env : HostEnv D H) (rtc : Rtc J) (greeters : List Nat) (s : AimedHost J D H) :
    AimedLabel J → Option (AimedHost J D H)
  | .video l => (s.video.step env rtc greeters l).map fun video =>
    { s with video, place := if s.video.plane.sameSession video.plane then s.place else none }
  | .notice p =>
    if s.video.plane.shown = some p.display then some { s with place := some p } else none

def machine (env : HostEnv D H) (rtc : Rtc J) (greeters : List Nat) :
    Machine (AimedHost J D H) (AimedLabel J) where
  init s := (VideoHost.machine env rtc greeters).init s.video ∧
    (∃ (rect : Option MonitorRect) (built : NewInjector), s.injector = built.build rect) ∧
    s.place = none
  step := step env rtc greeters

variable {env : HostEnv D H} {rtc : Rtc J} {greeters : List Nat}

omit [DecidableEq J] in
/-- What is read of the display fits the injector. -/
def Aimed (s : AimedHost J D H) : Prop :=
  s.video.Framed ∧ ∀ p ∈ s.place, ∀ i ∈ s.injector, i.Fits s.main p

omit [DecidableEq J] in
theorem Aimed.lands (h : s.Aimed) : s.Lands env := by
  obtain ⟨framed, fits⟩ := h
  have coherent : s.video.PictureCoherent [] := VideoHost.coherent_iff.mpr framed
  intro px py left right top bottom
  obtain ⟨x, y, shown, -⟩ := coherent.point px py left right top bottom
  refine ⟨x, y, shown, fun p read i built ev here takes r works => ?_⟩
  rw [← coherent.crop] at shown
  obtain ⟨inX, inY⟩ := CropRect.pointAt_mem left right top bottom shown
  obtain ⟨e, first, reaches⟩ := (fits p read i built).reaches env.keymap inX.1 inX.2
    inY.1 inY.2 (CropRect.at_remap shown here) (takes.remap _) works
  refine ⟨e, ?_, reaches⟩
  rw [← first]
  have slot : s.video.host.session.injector = some i := built
  simp only [HostSession.handleInput, slot, osEvents, List.flatMap_cons, List.flatMap_nil,
    List.append_nil]
  rfl

omit [DecidableEq J] in
/-- An event leaves the geometry of the injector. -/
theorem geometry_event (env : HostEnv D H) (sdp : J → Option String) (s : HostSession D H)
    (ev : TransportEvent J) (r : Readings) :
    (s.onEvent env sdp r ev).1.injector.map Injector.geometry =
      s.injector.map Injector.geometry := by
  have done : (s.onEvent env sdp r ev).1.injector =
      (callOn env.keymap s.injector (s.injectorCall (.event ev r))).1 :=
    congrArg Prod.fst (HostSession.turn_on env sdp s (.event ev r)).1
  rw [done]
  cases called : s.injectorCall (.event ev r) with
  | none => rfl
  | some call =>
      cases call with
      | inject ev ok =>
          cases s.injector with
          | none => rfl
          | some i => exact congrArg some (inject_geometry env.keymap i ok ev)
      | releaseAll ok =>
          cases s.injector with
          | none => rfl
          | some i => exact congrArg some (releaseAll_geometry i ok)
      | replace rect built => cases HostSession.injectorCall_replace called

/-- Only what notices a new geometry builds another injector. -/
theorem geometry_video {h h' : VideoHost J D H} {l : VideoLabel J}
    (taken : VideoHost.step env rtc greeters h l = some h') :
    (∃ built, l = .pollGeometry built ∧ ∃ changed ∈ h.plane.pollGeometryChanged,
      h'.host.session.injector = built.build changed.1) ∨
    h'.host.session.injector.map Injector.geometry =
      h.host.session.injector.map Injector.geometry := by
  cases l with
  | signal msg | peerSwitched | send e =>
      cases taken
      exact .inr rfl
  | driver l =>
      obtain ⟨k, -, rfl⟩ := Option.map_eq_some_iff.mp taken
      exact .inr rfl
  | handle r started =>
      simp only [VideoHost.step] at taken
      split at taken
      · cases taken
      next pc ev rest queue =>
        obtain ⟨-, eq⟩ := Option.ite_none_right_eq_some.mp taken
        cases eq
        exact .inr (geometry_event env rtc.sdp h.host.session ev r)
  | pollGeometry built =>
      obtain ⟨changed, polled, rfl⟩ := Option.map_eq_some_iff.mp taken
      exact .inl ⟨built, rfl, changed, polled, rfl⟩
  | plane l =>
      obtain ⟨r, -, rfl⟩ := Option.map_eq_some_iff.mp taken
      exact .inr rfl

omit [DecidableEq J] in
theorem fits_of_geometry {main : Nat} {p : Place} {a b : Option Injector}
    (same : b.map Injector.geometry = a.map Injector.geometry)
    (fits : ∀ i ∈ a, i.Fits main p) : ∀ j ∈ b, j.Fits main p := by
  rintro j rfl
  obtain ⟨i, here, geometry⟩ := Option.map_eq_some_iff.mp same.symm
  exact (Injector.fits_congr geometry main p).mp (fits i here)

theorem aimed_step {a : AimedLabel J} (h : s.Aimed) (met : s.Fitting a)
    (taken : s.step env rtc greeters a = some s') : s'.Aimed := by
  obtain ⟨framed, fits⟩ := h
  cases a with
  | notice p =>
      obtain ⟨-, same⟩ := Option.ite_none_right_eq_some.mp taken
      cases same
      refine ⟨framed, fun q read => ?_⟩
      obtain rfl := Option.some.inj read
      exact met
  | video l =>
      obtain ⟨video, stepped, rfl⟩ := Option.map_eq_some_iff.mp taken
      have zooms : s.video.ZoomsFramed l := by
        cases l <;> first | exact met | exact trivial
      refine ⟨(VideoHost.framed_step framed stepped).mpr zooms, fun p read => ?_⟩
      have read : p ∈ s.place := by
        simp only at read
        split at read
        · exact read
        · cases read
      obtain ⟨built, rfl, changed, polled, slot⟩ | same := geometry_video stepped
      · intro i there
        rw [injector, slot] at there
        exact met changed polled i there p read
      · exact fits_of_geometry same (fits p read)

/-- An accepted viewer sends a message, on a host with some displays. -/
def viewerAsks (displays : List DisplayInfo) (p : Payload) : List (AimedLabel String) :=
  let r := { Readings.sample with
    displays := (CaptureController.start displays 0).descriptors }
  let turns : List (VideoLabel String) := VideoHost.connects "a=fingerprint:sha-256 AB" ++
    [.driver (.read (.dataChannelMessage (sampleHello "SHA-256 AB" "taco"))),
      .driver (.read (.dataChannelMessage (encode (envelope p)))), .driver .readsDone] ++
    List.replicate 4 (.handle r true)
  turns.map .video

def twoDisplays : List DisplayInfo := [{ index := 0, width := 4, height := 3 },
  { index := 1, width := 4, height := 3 }]

def screens : VideoPlane := .inProcess (.new (.start twoDisplays 0))

/-- The right lower quarter. -/
def quarter : SetZoom where
  x := .fin (1 / 2)
  y := .fin (1 / 2)
  w := .fin (1 / 2)
  h := .fin (1 / 2)

/-- A host with a plane, whose platform gives an injector for a rectangle. -/
def sampleStart (plane : VideoPlane) (rect : Option MonitorRect) (built : NewInjector) :
    AimedHost String Unit Unit where
  video := ⟨.start sampleRtc [] (built.build rect) "" (), plane, []⟩
  main := 0
  place := none

theorem sampleStart_init (rect : Option MonitorRect) (built : NewInjector) :
    (machine sampleEnv sampleRtc []).init (sampleStart screens rect built) :=
  ⟨⟨[], built.build rect, "", (), screens, .inl ⟨_, _, rfl⟩, rfl⟩, ⟨rect, built, rfl⟩, rfl⟩

/-- An X screen. -/
def xScreen (display : Nat) (width height : Rat) (wide : 0 < width) (high : 0 < height) : Place :=
  ⟨display, 0, 0, width, height, width, height, wide, high⟩

def fullHd : Place := xScreen 0 1920 1080 (by norm_num) (by norm_num)

/-- The screen beside it, and it after a change of the mode. -/
def secondScreen : Place := xScreen 1 1280 1024 (by norm_num) (by norm_num)

def enlarged : Place := xScreen 0 3840 2160 (by norm_num) (by norm_num)

def x11FullHd : NewInjector := .x11 (.fin 1920) (.fin 1080)

/-- A viewer points at the middle of the picture. -/
def middle : InputEvent := .mouseMove { x := .fin (1 / 2), y := .fin (1 / 2) }

/-- What a host without a zoom posts for it. -/
def aimed (s : AimedHost String Unit Unit) : Option OsEvent :=
  (osEvents (s.video.host.session.handleInput sampleEnv .sample (some middle)).2).head?

theorem not_lands {s : AimedHost String Unit Unit} {p : Place} {i : Injector} {e : OsEvent}
    (whole : s.video.plane.crop s.video.zoom = .full) (read : s.place = some p)
    (built : s.injector = some i) (goes : s.aimed = some e)
    (misses : ¬ i.Reaches s.main p (1 / 2) (1 / 2) e) : ¬ s.Lands sampleEnv := by
  intro lands
  obtain ⟨x, y, shown, aims⟩ := lands (1 / 2) (1 / 2) (by norm_num) (by norm_num) (by norm_num)
    (by norm_num)
  rw [whole] at shown
  cases shown
  have takes : i.Takes (1 / 2) (1 / 2) middle := by cases i <;> trivial
  obtain ⟨e', first, reaches⟩ := aims p read i built middle ⟨rfl, rfl⟩ takes .sample rfl
  obtain rfl := Option.some.inj (goes.symm.trans first)
  exact misses reaches

/-- The right one of two outputs side by side. -/
def rightOutput : MonitorRect := ⟨.fin 1920, 0, .fin 1920, .fin 1080, .fin 3840, .fin 1080⟩

end AimedHost
end ReachMyDevice
