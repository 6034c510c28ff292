import Mathlib.Data.Rat.Floor
import ReachMyDevice.Lib.Machine
import ReachMyDevice.HostSession
import ReachMyDevice.Capture
import ReachMyDevice.Keymaps

/-!
# Where the pointer goes and what the picture shows there

The injector reads the geometry of one display when it is built. The capture
reads that of the display it is at, when its session starts and again when a
frame cannot be had.
-/
namespace ReachMyDevice
open Machines ExtendedRational

/-- A point of the desktop: on X11 a pixel of a screen, on macOS a point of the one global space. -/
structure DesktopPoint where
  space : Nat
  x : Rat
  y : Rat
  deriving DecidableEq, Repr

/-- The size of an X root window, in pixels. -/
structure RootSize where
  width : Nat
  height : Nat
  deriving DecidableEq, Repr

/-- The bounds of a macOS display in the global space, in points. -/
structure DisplayBounds where
  x : Rat
  y : Rat
  width : Rat
  height : Rat
  deriving DecidableEq, Repr

/-- What the window systems differ in, for geometries of type `G`. -/
structure WindowSystem (G : Type) where
  /-- The injector that reads a geometry. -/
  injector : G → Injector
  /-- What a frame of a display of that geometry shows at a relative position. -/
  shows : Nat → G → Rat → Rat → DesktopPoint

def x11System : WindowSystem RootSize where
  injector g := .x11 (.new (.fin g.width) (.fin g.height))
  shows screen g x y := ⟨screen, (⌊x * g.width⌋ : Int), (⌊y * g.height⌋ : Int)⟩

def macSystem : WindowSystem DisplayBounds where
  injector g := .mac (.new (.fin g.width) (.fin g.height))
  shows _ g x y := ⟨0, g.x + x * g.width, g.y + y * g.height⟩

/-- Where an event puts the pointer, `main` being the screen of the injector's connection. -/
def OsEvent.point (main : Nat) : OsEvent → Option DesktopPoint
  | .absolute x y => some ⟨main, x, y⟩
  | .cgMouse _ (.fin x) (.fin y) => some ⟨0, x, y⟩
  | _ => none

structure PointerHost (G : Type) where
  /-- The displays as they are. -/
  displays : List G
  /-- The display that the injector is built for, and its geometry at that time. -/
  main : Nat
  connected : G
  injector : Injector
  ctl : CaptureController
  /-- What the session that is live takes its display for; none before its first frame. -/
  region : Option G
  deriving DecidableEq

inductive PointerLabel (G : Type)
  | resized (display : Nat) (g : G)
  | inject (ev : InputEvent) (ok : Nat → Bool)
  | releaseAll (ok : Nat → Bool)
  | resume (started : Bool)
  | pause
  | select (id : Nat) (started : Bool)
  | setShowCursor (visible started : Bool)
  /-- The session reads the geometry of its display. -/
  | notice

namespace PointerHost
variable {G : Type}

/-- The controller after a call. A session that is not the one before has read nothing. -/
def controlled (s : PointerHost G) (ctl : CaptureController) : PointerHost G :=
  { s with
    ctl
    region := if ctl.ending = s.ctl.ending ∧ ctl.handle = s.ctl.handle then s.region else none }

def step (keymap : Keymap) (s : PointerHost G) : PointerLabel G → Option (PointerHost G)
  | .resized display g => some { s with displays := s.displays.set display g }
  | .inject ev ok => some { s with injector := (s.injector.inject keymap ok ev).1 }
  | .releaseAll ok => some { s with injector := (s.injector.releaseAll ok).1 }
  | .resume started => some (s.controlled (s.ctl.resume started))
  | .pause => some (s.controlled s.ctl.pause)
  | .select id started => some (s.controlled (s.ctl.select id started))
  | .setShowCursor visible started => some (s.controlled (s.ctl.setShowCursor visible started))
  | .notice =>
    match s.ctl.handle with
    | none => none
    | some session => (s.displays[session.display]?).map fun g => { s with region := some g }

def machine (sys : WindowSystem G) (keymap : Keymap) :
    Machine (PointerHost G) (PointerLabel G) where
  init s := s.displays[s.main]? = some s.connected ∧ s.injector = sys.injector s.connected ∧
    (∃ infos displayIndex, s.ctl = .start infos displayIndex) ∧ s.region = none
  step := step keymap

/-- A pointer event at a relative position. -/
def At (x y : Rat) : InputEvent → Prop
  | .mouseMove m => m.x = .fin x ∧ m.y = .fin y
  | .mouseButton b => b.x = .fin x ∧ b.y = .fin y
  | _ => False

/-- Every pointer event, without a zoom, goes to the point that the frames show at its position. -/
def Follows (sys : WindowSystem G) (keymap : Keymap) (s : PointerHost G) (display : Nat) (g : G) :
    Prop :=
  ∀ x y : Rat, 0 ≤ x → x ≤ 1 → 0 ≤ y → y ≤ 1 → ∀ ev, At x y ev → ∀ ok : Nat → Bool, ok 0 = true →
    (s.injector.inject keymap ok (CropRect.full.sanitized.remap ev)).2.head?.bind
      (OsEvent.point s.main) = some (sys.shows display g x y)

/-- What a session reads of its display fits what the injector was built for. -/
def Fitting (Fits : PointerHost G → Nat → G → Prop) (s : PointerHost G) : PointerLabel G → Prop
  | .notice => ∀ session g, s.ctl.handle = some session → s.displays[session.display]? = some g →
      Fits s session.display g
  | _ => True

end PointerHost

/-- The display of the injector, as large as it was then and not too large for the protocol. -/
def x11Fits (s : PointerHost RootSize) (display : Nat) (g : RootSize) : Prop :=
  display = s.main ∧ g = s.connected ∧ g.width ≤ 32767 ∧ g.height ≤ 32767

/-- A display at the origin that is as large as the one of the injector was then. -/
def macFits (s : PointerHost DisplayBounds) (_ : Nat) (g : DisplayBounds) : Prop :=
  g.x = 0 ∧ g.y = 0 ∧ g.width = s.connected.width ∧ g.height = s.connected.height

/-! ## The geometry of an injector never changes -/

def Injector.geometry : Injector → NewInjector
  | .uinput s => .uinput s.rect
  | .x11 s => .x11 s.width s.height
  | .mac s => .mac s.width s.height

theorem inject_geometry (keymap : Keymap) (i : Injector) (ok : Nat → Bool) (ev : InputEvent) :
    (i.inject keymap ok ev).1.geometry = i.geometry := by
  cases i with
  | uinput s =>
      cases ev <;> simp only [Injector.inject, UinputInjector.inject] <;>
        first | rfl | (split <;> rfl)
  | x11 s =>
      cases ev <;> simp only [Injector.inject, X11Injector.inject] <;> first | rfl | (split <;> rfl)
  | mac s =>
      cases ev with
      | mouseButton b =>
          simp only [Injector.inject, MacInjector.inject, MacInjector.setDown]
          split
          · rfl
          · split <;> rfl
      | key k =>
          simp only [Injector.inject, MacInjector.inject]
          split <;> rfl
      | _ => rfl

theorem releaseAll_geometry (i : Injector) (ok : Nat → Bool) :
    (i.releaseAll ok).1.geometry = i.geometry := by
  cases i <;> rfl

namespace PointerHost
variable {G : Type} {sys : WindowSystem G} {keymap : Keymap} {s s' : PointerHost G}

theorem geometry_step {a : PointerLabel G} (step : s.step keymap a = some s') :
    s'.injector.geometry = s.injector.geometry ∧ s'.main = s.main ∧ s'.connected = s.connected := by
  cases a with
  | notice =>
      simp only [PointerHost.step] at step
      split at step
      · cases step
      · obtain ⟨g, -, rfl⟩ := Option.map_eq_some_iff.mp step
        exact ⟨rfl, rfl, rfl⟩
  | inject ev ok =>
      obtain rfl := Option.some.inj step
      exact ⟨inject_geometry keymap _ ok ev, rfl, rfl⟩
  | releaseAll ok =>
      obtain rfl := Option.some.inj step
      exact ⟨releaseAll_geometry _ ok, rfl, rfl⟩
  | _ =>
      obtain rfl := Option.some.inj step
      exact ⟨rfl, rfl, rfl⟩

theorem geometry_of_reachable (run : (machine sys keymap).Reachable s) :
    s.injector.geometry = (sys.injector s.connected).geometry := by
  refine Machine.Reachable.invariant (I := fun s : PointerHost G =>
    s.injector.geometry = (sys.injector s.connected).geometry) ?_ ?_ run
  · rintro s ⟨-, built, -⟩
    rw [built]
  · intro s a s' kept step
    obtain ⟨geometry, -, connected⟩ := geometry_step step
    rw [geometry, connected, kept]

/-! ## X11 -/

theorem toInt_nonneg {q : Rat} (nonneg : 0 ≤ q) :
    (Ext.fin q).toInt (-2 ^ 15) (2 ^ 15 - 1) = min 32767 ⌊q⌋ := by
  have low : 0 ≤ ⌊q⌋ := Int.floor_nonneg.mpr nonneg
  rw [Ext.toInt_floor nonneg]
  omega

/-- A pointer event is one call to move the pointer, and then what belongs to a button. -/
theorem x11_moves {i : X11Injector} {x y : Rat} {ev : InputEvent} (here : At x y ev)
    {ok : Nat → Bool} (works : ok 0 = true) :
    (i.inject keymap ok ev).2.head? = some (.absolute (X11Injector.toPixel (.fin x) i.width)
      (X11Injector.toPixel (.fin y) i.height)) := by
  cases ev with
  | mouseMove m =>
      obtain ⟨left, top⟩ := here
      simp [X11Injector.inject, X11Injector.calls, works, left, top]
  | mouseButton b =>
      obtain ⟨left, top⟩ := here
      simp [X11Injector.inject, X11Injector.calls, works, left, top]
  | mouseScroll w => exact here.elim
  | key k => exact here.elim

theorem remap_full (ev : InputEvent) : CropRect.full.sanitized.remap ev = ev := rfl

/-- Where every pointer event goes to `aim`, that should be the point that is shown. -/
theorem follows_iff_aims {s : PointerHost G} {display : Nat} {g : G}
    {aim : Rat → Rat → DesktopPoint}
    (goes : ∀ x y ev, At x y ev → ∀ ok : Nat → Bool, ok 0 = true →
      (s.injector.inject keymap ok (CropRect.full.sanitized.remap ev)).2.head?.bind
        (OsEvent.point s.main) = some (aim x y)) :
    Follows sys keymap s display g ↔
      ∀ x y : Rat, 0 ≤ x → x ≤ 1 → 0 ≤ y → y ≤ 1 → aim x y = sys.shows display g x y := by
  constructor
  · intro follows x y x0 x1 y0 y1
    let move : InputEvent := .mouseMove { x := .fin x, y := .fin y }
    have same := follows x y x0 x1 y0 y1 move ⟨rfl, rfl⟩ (fun _ => true) rfl
    rw [goes x y move ⟨rfl, rfl⟩ (fun _ => true) rfl] at same
    exact Option.some.inj same
  · intro aims x y x0 x1 y0 y1 ev here ok works
    rw [goes x y ev here ok works, aims x y x0 x1 y0 y1]

/-- The pixel of a relative position, against that of another size. -/
theorem pixel_agrees_iff {size shown : Nat} :
    (∀ x : Rat, 0 ≤ x → x ≤ 1 → X11Injector.toPixel (.fin x) (.fin size) = ⌊x * shown⌋) ↔
      shown = size ∧ size ≤ 32767 := by
  have pixel : ∀ x : Rat, 0 ≤ x →
      X11Injector.toPixel (.fin x) (.fin size) = min 32767 ⌊x * size⌋ := by
    intro x nonneg
    exact toInt_nonneg (mul_nonneg nonneg (Nat.cast_nonneg size))
  constructor
  · intro agrees
    have whole := agrees 1 zero_le_one le_rfl
    have half := agrees (1 / 2) (by norm_num) (by norm_num)
    rw [pixel _ (by norm_num)] at whole half
    simp only [one_mul, Int.floor_natCast] at whole
    have halved : ∀ n : Nat, ⌊(1 / 2 : Rat) * n⌋ = ((n / 2 : Nat) : Int) := by
      intro n
      rw [show (1 / 2 : Rat) * n = (n : Rat) / (2 : Nat) by push_cast; ring]
      exact_mod_cast Rat.floor_natCast_div_natCast n 2
    rw [halved, halved] at half
    omega
  · rintro ⟨rfl, small⟩ x nonneg atMost
    rw [pixel x nonneg]
    refine min_eq_right ?_
    have below : x * shown ≤ shown := mul_le_of_le_one_left (Nat.cast_nonneg shown) atMost
    have floored : ⌊x * shown⌋ ≤ (shown : Int) := by
      exact_mod_cast (Int.floor_le (x * (shown : Rat))).trans below
    omega

theorem x11_follows_iff {s : PointerHost RootSize}
    (built : s.injector.geometry = (x11System.injector s.connected).geometry) (display : Nat)
    (g : RootSize) :
    Follows x11System keymap s display g ↔ x11Fits s display g := by
  cases injector : s.injector with
  | uinput i => simp [injector, Injector.geometry, x11System] at built
  | mac i => simp [injector, Injector.geometry, x11System] at built
  | x11 i =>
      rw [injector] at built
      injection built with width height
      have goes : ∀ x y ev, At x y ev → ∀ ok : Nat → Bool, ok 0 = true →
          (s.injector.inject keymap ok (CropRect.full.sanitized.remap ev)).2.head?.bind
            (OsEvent.point s.main) = some ⟨s.main,
              (X11Injector.toPixel (.fin x) (.fin s.connected.width) : Int),
              (X11Injector.toPixel (.fin y) (.fin s.connected.height) : Int)⟩ := by
        intro x y ev here ok works
        rw [remap_full, injector]
        simp only [Injector.inject, Prod.map, id_eq, x11_moves here works, Option.bind_some,
          OsEvent.point, width, height]
        rfl
      rw [follows_iff_aims goes]
      constructor
      · intro aims
        have agrees : ∀ x y : Rat, 0 ≤ x → x ≤ 1 → 0 ≤ y → y ≤ 1 → display = s.main ∧
            X11Injector.toPixel (.fin x) (.fin s.connected.width) = ⌊x * g.width⌋ ∧
            X11Injector.toPixel (.fin y) (.fin s.connected.height) = ⌊y * g.height⌋ := by
          intro x y x0 x1 y0 y1
          injection aims x y x0 x1 y0 y1 with space left top
          exact ⟨space.symm, by exact_mod_cast left, by exact_mod_cast top⟩
        have wide := pixel_agrees_iff.mp fun x x0 x1 => (agrees x 0 x0 x1 le_rfl zero_le_one).2.1
        have high := pixel_agrees_iff.mp fun y y0 y1 => (agrees 0 y le_rfl zero_le_one y0 y1).2.2
        refine ⟨(agrees 0 0 le_rfl zero_le_one le_rfl zero_le_one).1, ?_, ?_, ?_⟩
        · obtain ⟨w, h⟩ := g
          exact (RootSize.mk.injEq ..).mpr ⟨wide.1, high.1⟩
        · exact wide.1 ▸ wide.2
        · exact high.1 ▸ high.2
      · rintro ⟨rfl, rfl, wide, high⟩ x y x0 x1 y0 y1
        rw [pixel_agrees_iff.mpr ⟨rfl, wide⟩ x x0 x1, pixel_agrees_iff.mpr ⟨rfl, high⟩ y y0 y1]
        rfl

/-! ## macOS -/

theorem mac_moves {i : MacInjector} {x y : Rat} {ev : InputEvent} (here : At x y ev)
    {ok : Nat → Bool} (works : ok 0 = true) :
    ∃ kind, (i.inject keymap ok ev).2.head? =
      some (.cgMouse kind ((Ext.fin x).mul i.width) ((Ext.fin y).mul i.height)) := by
  cases ev with
  | mouseMove m =>
      obtain ⟨left, top⟩ := here
      exact ⟨i.moveKind, by simp [MacInjector.inject, works, left, top]⟩
  | mouseButton b =>
      obtain ⟨left, top⟩ := here
      exact ⟨.button (MacInjector.buttonNumber b.button) b.pressed,
        by simp [MacInjector.inject, works, left, top]⟩
  | mouseScroll w => exact here.elim
  | key k => exact here.elim

theorem mac_follows_iff {s : PointerHost DisplayBounds}
    (built : s.injector.geometry = (macSystem.injector s.connected).geometry) (display : Nat)
    (g : DisplayBounds) :
    Follows macSystem keymap s display g ↔ macFits s display g := by
  cases injector : s.injector with
  | uinput i => simp [injector, Injector.geometry, macSystem] at built
  | x11 i => simp [injector, Injector.geometry, macSystem] at built
  | mac i =>
      rw [injector] at built
      injection built with width height
      have goes : ∀ x y ev, At x y ev → ∀ ok : Nat → Bool, ok 0 = true →
          (s.injector.inject keymap ok (CropRect.full.sanitized.remap ev)).2.head?.bind
            (OsEvent.point s.main) =
              some ⟨0, x * s.connected.width, y * s.connected.height⟩ := by
        intro x y ev here ok works
        obtain ⟨kind, moves⟩ : ∃ kind, (i.inject keymap ok ev).2.head? = _ := mac_moves here works
        rw [remap_full, injector]
        simp only [Injector.inject, Prod.map, id_eq, moves, Option.bind_some, width, height]
        rfl
      have agrees_iff : ∀ x y : Rat, (⟨0, x * s.connected.width, y * s.connected.height⟩ :
          DesktopPoint) = macSystem.shows display g x y ↔
          x * s.connected.width = g.x + x * g.width ∧
            y * s.connected.height = g.y + y * g.height := by
        intro x y
        simp [macSystem]
      simp only [follows_iff_aims goes, agrees_iff]
      constructor
      · intro agrees
        have corner := agrees 0 0 le_rfl zero_le_one le_rfl zero_le_one
        have opposite := agrees 1 1 zero_le_one le_rfl zero_le_one le_rfl
        refine ⟨by linarith [corner.1], by linarith [corner.2], ?_, ?_⟩
        · linarith [corner.1, opposite.1]
        · linarith [corner.2, opposite.2]
      · rintro ⟨left, top, wide, high⟩ x y _ _ _ _
        rw [left, top, wide, high]
        exact ⟨(zero_add _).symm, (zero_add _).symm⟩

/-! ## Runs -/

/-- A condition that looks at what the injector was built for only. -/
def Fixed (Fits : PointerHost G → Nat → G → Prop) : Prop :=
  ∀ s s' : PointerHost G, s'.main = s.main → s'.connected = s.connected → Fits s' = Fits s

theorem region_controlled {ctl : CaptureController} {session : CaptureSession} {g : G}
    (live : (s.controlled ctl).ctl.handle = some session)
    (read : (s.controlled ctl).region = some g) :
    s.ctl.handle = some session ∧ s.region = some g := by
  simp only [controlled] at live read
  split at read
  next same => exact ⟨same.2 ▸ live, read⟩
  next => cases read

/-- What the session has read fits, when it fitted each time something was read. -/
theorem fits_of_fitting {Fits : PointerHost G → Nat → G → Prop} (fixed : Fixed Fits)
    (run : (machine sys keymap).ReachableBy (Fitting Fits) s) :
    ∀ session g, s.ctl.handle = some session → s.region = some g → Fits s session.display g := by
  induction run with
  | start first =>
      intro session g _ read
      rw [first.2.2.2] at read
      cases read
  | @next s s' a run met step ih =>
      intro session g live read
      obtain ⟨-, main, connected⟩ := geometry_step step
      rw [fixed s s' main connected]
      cases a with
      | notice =>
          simp only [machine, PointerHost.step] at step
          split at step
          next => cases step
          next session' live' =>
            obtain ⟨g', shown, rfl⟩ := Option.map_eq_some_iff.mp step
            obtain rfl := Option.some.inj (live'.symm.trans live)
            obtain rfl := Option.some.inj read
            exact met session' g' live' shown
      | resized | inject | releaseAll =>
          obtain rfl := Option.some.inj step
          exact ih session g live read
      | resume | pause | select | setShowCursor =>
          obtain rfl := Option.some.inj step
          obtain ⟨live, read⟩ := region_controlled live read
          exact ih session g live read

theorem x11Fits_fixed : Fixed x11Fits := by
  intro s s' main connected
  funext display g
  rw [x11Fits, x11Fits, main, connected]

theorem macFits_fixed : Fixed macFits := by
  intro s s' _ connected
  funext display g
  rw [macFits, macFits, connected]

/-- The pointer follows the picture in every state where what the session has read fits the
injector, and in no other, so in every run where it fits whenever it is read. -/
theorem pointer_follows_iff (keymap : Keymap) :
    ((∀ s, (machine x11System keymap).Reachable s → ∀ session g, s.ctl.handle = some session →
        s.region = some g →
        (Follows x11System keymap s session.display g ↔ x11Fits s session.display g)) ∧
      ∀ s, (machine x11System keymap).ReachableBy (Fitting x11Fits) s → ∀ session g,
        s.ctl.handle = some session → s.region = some g →
        Follows x11System keymap s session.display g) ∧
    (∀ s, (machine macSystem keymap).Reachable s → ∀ session g, s.ctl.handle = some session →
        s.region = some g →
        (Follows macSystem keymap s session.display g ↔ macFits s session.display g)) ∧
      ∀ s, (machine macSystem keymap).ReachableBy (Fitting macFits) s → ∀ session g,
        s.ctl.handle = some session → s.region = some g →
        Follows macSystem keymap s session.display g := by
  have x11 : ∀ s, (machine x11System keymap).Reachable s → ∀ display g,
      Follows x11System keymap s display g ↔ x11Fits s display g :=
    fun s run => x11_follows_iff (geometry_of_reachable run)
  have mac : ∀ s, (machine macSystem keymap).Reachable s → ∀ display g,
      Follows macSystem keymap s display g ↔ macFits s display g :=
    fun s run => mac_follows_iff (geometry_of_reachable run)
  refine ⟨⟨fun s run session g _ _ => x11 s run session.display g, ?_⟩,
    fun s run session g _ _ => mac s run session.display g, ?_⟩
  · intro s run session g live read
    have reached := run.mono fun _ _ _ => trivial
    exact (x11 s reached session.display g).mpr
      (fits_of_fitting x11Fits_fixed run session g live read)
  · intro s run session g live read
    have reached := run.mono fun _ _ _ => trivial
    exact (mac s reached session.display g).mpr
      (fits_of_fitting macFits_fixed run session g live read)

/-- Two screens, and a controller that captures the first. -/
def x11Start : PointerHost RootSize where
  displays := [⟨1920, 1080⟩, ⟨1280, 1024⟩]
  main := 0
  connected := ⟨1920, 1080⟩
  injector := x11System.injector ⟨1920, 1080⟩
  ctl := .start [⟨0, 1920, 1080⟩, ⟨1, 1280, 1024⟩] 0
  region := none

/-- The second display stands to the right of the first. -/
def macStart : PointerHost DisplayBounds where
  displays := [⟨0, 0, 1440, 900⟩, ⟨1440, 0, 1440, 900⟩]
  main := 0
  connected := ⟨0, 0, 1440, 900⟩
  injector := macSystem.injector ⟨0, 0, 1440, 900⟩
  ctl := .start [⟨0, 1440, 900⟩, ⟨1, 1440, 900⟩] 0
  region := none

/-- Capture starts and reads its display. -/
theorem reachableBy_of_resume {Fits : PointerHost G → Nat → G → Prop} {g : G}
    (first : (machine sys keymap).init s) (off : s.ctl.handle = none)
    (shown : s.displays[s.ctl.current]? = some g)
    (fits : Fits { s with ctl := s.ctl.startCapture true } s.ctl.current g) :
    (machine sys keymap).ReachableBy (Fitting Fits)
      { s with ctl := s.ctl.startCapture true, region := some g } := by
  have resumed : (machine sys keymap).ReachableBy (Fitting Fits)
      { s with ctl := s.ctl.startCapture true } := by
    refine .next (a := .resume true) (.start first) trivial ?_
    simp [machine, PointerHost.step, controlled, CaptureController.resume, off,
      CaptureController.startCapture, first.2.2.2]
  refine .next (a := .notice) resumed ?_ ?_
  · intro session g' live read
    obtain rfl := Option.some.inj live
    obtain rfl := Option.some.inj (shown.symm.trans read)
    exact fits
  · simp [machine, PointerHost.step, CaptureController.startCapture, shown]

theorem pointer_follows_iff_first_displays :
    (∃ s, (machine x11System .tables).ReachableBy (Fitting x11Fits) s ∧
      s.ctl.handle = some ⟨0, true⟩ ∧ s.region = some ⟨1920, 1080⟩ ∧ x11Fits s 0 ⟨1920, 1080⟩ ∧
      Follows x11System .tables s 0 ⟨1920, 1080⟩) ∧
    ∃ s, (machine macSystem .tables).ReachableBy (Fitting macFits) s ∧
      s.ctl.handle = some ⟨0, true⟩ ∧ s.region = some ⟨0, 0, 1440, 900⟩ ∧
      macFits s 0 ⟨0, 0, 1440, 900⟩ ∧ Follows macSystem .tables s 0 ⟨0, 0, 1440, 900⟩ := by
  obtain ⟨⟨x11_iff, x11⟩, mac_iff, mac⟩ := pointer_follows_iff .tables
  constructor
  · have run : (machine x11System .tables).ReachableBy (Fitting x11Fits) _ :=
      reachableBy_of_resume (s := x11Start) ⟨rfl, rfl, ⟨_, _, rfl⟩, rfl⟩ rfl rfl
        ⟨rfl, rfl, by decide, by decide⟩
    have follows := x11 _ run ⟨0, true⟩ _ rfl rfl
    have fits := (x11_iff _ (run.mono fun _ _ _ => trivial) ⟨0, true⟩ _ rfl rfl).mp follows
    exact ⟨_, run, rfl, rfl, fits, follows⟩
  · have run : (machine macSystem .tables).ReachableBy (Fitting macFits) _ :=
      reachableBy_of_resume (s := macStart) ⟨rfl, rfl, ⟨_, _, rfl⟩, rfl⟩ rfl rfl
        ⟨rfl, rfl, rfl, rfl⟩
    have follows := mac _ run ⟨0, true⟩ _ rfl rfl
    have fits := (mac_iff _ (run.mono fun _ _ _ => trivial) ⟨0, true⟩ _ rfl rfl).mp follows
    exact ⟨_, run, rfl, rfl, fits, follows⟩

/-- Where a move to the middle of the picture puts the pointer. -/
def middle (s : PointerHost G) : Option DesktopPoint :=
  (s.injector.inject .tables (fun _ => true) (CropRect.full.sanitized.remap
    (.mouseMove { x := .fin (1 / 2), y := .fin (1 / 2) }))).2.head?.bind (OsEvent.point s.main)

theorem not_follows_of_middle {display : Nat} {g : G} {p q : DesktopPoint}
    (goes : s.middle = some p) (shown : sys.shows display g (1 / 2) (1 / 2) = q) (apart : p ≠ q) :
    ¬ Follows sys .tables s display g := by
  intro follows
  have there : s.middle = some (sys.shows display g (1 / 2) (1 / 2)) :=
    follows _ _ (by norm_num) (by norm_num) (by norm_num) (by norm_num)
      (.mouseMove { x := .fin (1 / 2), y := .fin (1 / 2) }) ⟨rfl, rfl⟩ (fun _ => true) rfl
  rw [goes, shown] at there
  exact apart (Option.some.inj there)

/-- A viewer selects the second screen; the first is enlarged after the injector was built; a
viewer selects the second display of a Mac. -/
theorem pointer_goes_elsewhere :
    (∃ s, (machine x11System .tables).Reachable s ∧ s.ctl.handle = some ⟨1, true⟩ ∧
      s.region = some ⟨1280, 1024⟩ ∧ s.middle = some ⟨0, 960, 540⟩ ∧
      x11System.shows 1 ⟨1280, 1024⟩ (1 / 2) (1 / 2) = ⟨1, 640, 512⟩ ∧
      ¬ Follows x11System .tables s 1 ⟨1280, 1024⟩) ∧
    (∃ s, (machine x11System .tables).Reachable s ∧ s.ctl.handle = some ⟨0, true⟩ ∧
      s.region = some ⟨3840, 2160⟩ ∧ s.middle = some ⟨0, 960, 540⟩ ∧
      x11System.shows 0 ⟨3840, 2160⟩ (1 / 2) (1 / 2) = ⟨0, 1920, 1080⟩ ∧
      ¬ Follows x11System .tables s 0 ⟨3840, 2160⟩) ∧
    ∃ s, (machine macSystem .tables).Reachable s ∧ s.ctl.handle = some ⟨1, true⟩ ∧
      s.region = some ⟨1440, 0, 1440, 900⟩ ∧ s.middle = some ⟨0, 720, 450⟩ ∧
      macSystem.shows 1 ⟨1440, 0, 1440, 900⟩ (1 / 2) (1 / 2) = ⟨0, 2160, 450⟩ ∧
      ¬ Follows macSystem .tables s 1 ⟨1440, 0, 1440, 900⟩ := by
  refine ⟨?_, ?_, ?_⟩
  · obtain ⟨s, run, live, read, goes⟩ := Machine.exists_reachableBy (machine x11System .tables)
      Machine.Always (s := x11Start) ⟨rfl, rfl, ⟨_, _, rfl⟩, rfl⟩
      [.resume true, .notice, .select 1 true, .notice]
      (fun s => s.ctl.handle = some ⟨1, true⟩ ∧ s.region = some ⟨1280, 1024⟩ ∧
        s.middle = some ⟨0, 960, 540⟩) (by decide +kernel)
    have shown : x11System.shows 1 ⟨1280, 1024⟩ (1 / 2) (1 / 2) = ⟨1, 640, 512⟩ := by decide +kernel
    exact ⟨s, run, live, read, goes, shown, not_follows_of_middle goes shown (by decide +kernel)⟩
  · obtain ⟨s, run, live, read, goes⟩ := Machine.exists_reachableBy (machine x11System .tables)
      Machine.Always (s := x11Start) ⟨rfl, rfl, ⟨_, _, rfl⟩, rfl⟩
      [.resume true, .notice, .resized 0 ⟨3840, 2160⟩, .notice]
      (fun s => s.ctl.handle = some ⟨0, true⟩ ∧ s.region = some ⟨3840, 2160⟩ ∧
        s.middle = some ⟨0, 960, 540⟩) (by decide +kernel)
    have shown : x11System.shows 0 ⟨3840, 2160⟩ (1 / 2) (1 / 2) = ⟨0, 1920, 1080⟩ := by
      decide +kernel
    exact ⟨s, run, live, read, goes, shown, not_follows_of_middle goes shown (by decide +kernel)⟩
  · obtain ⟨s, run, live, read, goes⟩ := Machine.exists_reachableBy (machine macSystem .tables)
      Machine.Always (s := macStart) ⟨rfl, rfl, ⟨_, _, rfl⟩, rfl⟩
      [.resume true, .notice, .select 1 true, .notice]
      (fun s => s.ctl.handle = some ⟨1, true⟩ ∧ s.region = some ⟨1440, 0, 1440, 900⟩ ∧
        s.middle = some ⟨0, 720, 450⟩) (by decide +kernel)
    have shown : macSystem.shows 1 ⟨1440, 0, 1440, 900⟩ (1 / 2) (1 / 2) = ⟨0, 2160, 450⟩ := by
      decide +kernel
    exact ⟨s, run, live, read, goes, shown, not_follows_of_middle goes shown (by decide +kernel)⟩

end PointerHost
end ReachMyDevice
