import ReachMyDevice.Protocol

/-!
# Input injection

The three platform backends. `ok` tells which calls to the operating system
succeed, counted within one event; a failed call posts nothing.
-/
namespace ReachMyDevice

/-- The tables of the `keymap` module: usages without an entry are dropped. -/
structure Keymap where
  hidToEvdev : Nat → Option Nat
  hidToXKeycode : Nat → Option Nat
  hidToMacos : Nat → Option Nat

structure MonitorRect where
  ox : F64
  oy : F64
  mw : F64
  mh : F64
  dw : F64
  dh : F64
  deriving DecidableEq, Repr

/-- Something that can be held down. A uinput button is a key code. -/
inductive Control
  | key (code : Nat)
  | button (number : Nat)
  deriving DecidableEq, Repr

inductive CgMouse
  | moved
  | dragged (number : Nat)
  | button (number : Nat) (down : Bool)
  deriving DecidableEq, Repr

/-- What reaches the operating system. -/
inductive OsEvent
  | absolute (x y : Int)
  | relative (horizontal : Bool) (notch hires : Int)
  | press (c : Control)
  | release (c : Control)
  | cgMouse (kind : CgMouse) (x y : F64)
  | cgScroll (dy dx : Int)
  | cgKey (code : Nat) (down : Bool) (flags : Nat)
  deriving DecidableEq, Repr

def absMax : Int := 65535

structure UinputInjector where
  rect : Option MonitorRect
  pressed : List Nat
  lastX : Int
  lastY : Int
  deriving DecidableEq, Repr

structure X11Injector where
  width : F64
  height : F64
  pressedKeys : List Nat
  pressedButtons : List Nat
  deriving DecidableEq, Repr

structure MacInjector where
  width : F64
  height : F64
  leftDown : Bool
  rightDown : Bool
  otherDown : Bool
  deriving DecidableEq, Repr

inductive Injector
  | uinput (s : UinputInjector)
  | x11 (s : X11Injector)
  | mac (s : MacInjector)
  deriving DecidableEq, Repr

def keyEdge (code : Nat) (down : Bool) : OsEvent :=
  if down then .press (.key code) else .release (.key code)

def buttonEdge (number : Nat) (down : Bool) : OsEvent :=
  if down then .press (.button number) else .release (.button number)

def track (held : List Nat) (code : Nat) (down : Bool) : List Nat :=
  if down then held.insert code else held.erase code

namespace UinputInjector

def new (rect : Option MonitorRect) : UinputInjector where
  rect := rect
  pressed := []
  lastX := absMax / 2
  lastY := absMax / 2

def toAxis (v : F64) : Int := ((v.clamp 0 1).mul (.fin absMax)).toInt (-2 ^ 31) (2 ^ 31 - 1)

def map (s : UinputInjector) (x y : F64) : Option (Int × Int) :=
  if x.isFinite && y.isFinite then
    match s.rect with
    | some r =>
      some (toAxis ((r.ox.add ((x.clamp 0 1).mul r.mw)).div r.dw),
        toAxis ((r.oy.add ((y.clamp 0 1).mul r.mh)).div r.dh))
    | none => some (toAxis x, toAxis y)
  else none

/-- Notches and the high-resolution value of a wheel delta. -/
def scrollAxes (v : F64) : Int × Int :=
  if !v.isFinite || v.eq 0 then (0, 0)
  else
    let v := v.clamp (.fin (-30)) (.fin 30)
    let n := v.round.toInt (-2 ^ 31) (2 ^ 31 - 1)
    let notch := if n = 0 then if v.gt 0 then 1 else -1 else n
    (notch, (v.mul (.fin 120)).round.toInt (-2 ^ 31) (2 ^ 31 - 1))

def wheel (horizontal : Bool) (v : F64) : List OsEvent :=
  if (scrollAxes v).1 = 0 then []
  else [.relative horizontal (scrollAxes v).1 (scrollAxes v).2]

/-- `BTN_LEFT`, `BTN_RIGHT`, `BTN_MIDDLE`. -/
def buttonCode (button : Int) : Nat :=
  if button = 2 then 0x111 else if button = 3 then 0x112 else 0x110

def inject (keymap : Keymap) (s : UinputInjector) (ok : Nat → Bool) :
    InputEvent → UinputInjector × List OsEvent
  | .mouseMove m =>
    match s.map m.x m.y with
    | none => (s, [])
    | some (x, y) => ({ s with lastX := x, lastY := y }, if ok 0 then [.absolute x y] else [])
  | .mouseButton b =>
    -- An exact (0,0) is "no position", as is a position that cannot be mapped.
    let (x, y) :=
      if b.x.eq 0 && b.y.eq 0 then (s.lastX, s.lastY) else (s.map b.x b.y).getD (s.lastX, s.lastY)
    let code := buttonCode b.button
    ({ s with lastX := x, lastY := y, pressed := track s.pressed code b.pressed },
      if ok 0 then [.absolute x y, keyEdge code b.pressed] else [])
  | .mouseScroll w =>
    let evs := wheel false w.dy ++ wheel true w.dx
    (s, if ok 0 then evs else [])
  | .key k =>
    match keymap.hidToEvdev k.hidUsage with
    | none => (s, [])
    | some code =>
      ({ s with pressed := track s.pressed code k.pressed },
        if ok 0 then [keyEdge code k.pressed] else [])

/-- One call posts all the releases; the set is emptied before it. -/
def releaseAll (s : UinputInjector) (ok : Nat → Bool) : UinputInjector × List OsEvent :=
  ({ s with pressed := [] }, if ok 0 then s.pressed.map fun code => .release (.key code) else [])

end UinputInjector

namespace X11Injector

def new (width height : F64) : X11Injector where
  width := width
  height := height
  pressedKeys := []
  pressedButtons := []

def toPixel (v size : F64) : Int := (v.mul size).toInt (-2 ^ 15) (2 ^ 15 - 1)

/-- The calls are made in turn; the first failure ends them. -/
def calls (ok : Nat → Bool) (evs : List OsEvent) : List OsEvent :=
  ((evs.zipIdx).takeWhile fun e => ok e.2).map Prod.fst

def click (button : Nat) : List OsEvent := [.press (.button button), .release (.button button)]

/-- X numbers the middle button 2 and the right button 3. -/
def buttonNumber (button : Int) : Nat := if button = 2 then 3 else if button = 3 then 2 else 1

def inject (keymap : Keymap) (s : X11Injector) (ok : Nat → Bool) :
    InputEvent → X11Injector × List OsEvent
  | .mouseMove m => (s, calls ok [.absolute (toPixel m.x s.width) (toPixel m.y s.height)])
  | .mouseButton b =>
    let number := buttonNumber b.button
    let evs := [.absolute (toPixel b.x s.width) (toPixel b.y s.height), buttonEdge number b.pressed]
    (if ok 0 then { s with pressedButtons := track s.pressedButtons number b.pressed } else s,
      calls ok evs)
  | .mouseScroll w =>
    let vertical :=
      if w.dy.gt 0 then click 4 else if w.dy.lt 0 then click 5 else []
    let horizontal :=
      if w.dx.gt 0 then click 7 else if w.dx.lt 0 then click 6 else []
    (s, calls ok (vertical ++ horizontal))
  | .key k =>
    match keymap.hidToXKeycode k.hidUsage with
    | none => (s, [])
    | some code =>
      ({ s with pressedKeys := track s.pressedKeys code k.pressed },
        calls ok [keyEdge code k.pressed])

/-- One call for each release; a failed one does not stop the others. -/
def releaseAll (s : X11Injector) (ok : Nat → Bool) : X11Injector × List OsEvent :=
  let ups := s.pressedKeys.map (.release <| .key ·) ++ s.pressedButtons.map (.release <| .button ·)
  ({ s with pressedKeys := [], pressedButtons := [] },
    ((ups.zipIdx).filter fun e => ok e.2).map Prod.fst)

end X11Injector

namespace MacInjector

def new (width height : F64) : MacInjector where
  width := width
  height := height
  leftDown := false
  rightDown := false
  otherDown := false

/-- The five modifier bits the wire knows. -/
def cgFlags (modifiers : Nat) : Nat := modifiers % 32

def moveKind (s : MacInjector) : CgMouse :=
  if s.leftDown then .dragged 1 else if s.rightDown then .dragged 2
  else if s.otherDown then .dragged 3 else .moved

def setDown (s : MacInjector) (button : Int) (down : Bool) : MacInjector :=
  if button = 2 then { s with rightDown := down }
  else if button = 3 then { s with otherDown := down }
  else { s with leftDown := down }

def buttonNumber (button : Int) : Nat := if button = 2 then 2 else if button = 3 then 3 else 1

def inject (keymap : Keymap) (s : MacInjector) (ok : Nat → Bool) :
    InputEvent → MacInjector × List OsEvent
  | .mouseMove m =>
    (s, if ok 0 then [.cgMouse s.moveKind (m.x.mul s.width) (m.y.mul s.height)] else [])
  | .mouseButton b =>
    (s.setDown b.button b.pressed,
      if ok 0 then
        [.cgMouse (.button (buttonNumber b.button) b.pressed) (b.x.mul s.width) (b.y.mul s.height)]
      else [])
  | .mouseScroll w =>
    (s, if ok 0 then
      [.cgScroll (w.dy.toInt (-2 ^ 31) (2 ^ 31 - 1)) (w.dx.toInt (-2 ^ 31) (2 ^ 31 - 1))] else [])
  | .key k =>
    match keymap.hidToMacos k.hidUsage with
    | none => (s, [])
    | some code => (s, if ok 0 then [.cgKey code k.pressed (cgFlags k.modifiers)] else [])

end MacInjector

namespace Injector

def inject (keymap : Keymap) (i : Injector) (ok : Nat → Bool) (ev : InputEvent) :
    Injector × List OsEvent :=
  match i with
  | .uinput s => ((s.inject keymap ok ev).map .uinput id)
  | .x11 s => ((s.inject keymap ok ev).map .x11 id)
  | .mac s => ((s.inject keymap ok ev).map .mac id)

/-- The macOS backend keeps the default of the trait, which does nothing. -/
def releaseAll (i : Injector) (ok : Nat → Bool) : Injector × List OsEvent :=
  match i with
  | .uinput s => ((s.releaseAll ok).map .uinput id)
  | .x11 s => ((s.releaseAll ok).map .x11 id)
  | .mac s => (.mac s, [])

end Injector

/-- The control an event presses or releases. -/
def OsEvent.edge : OsEvent → Option (Control × Bool)
  | .press c => some (c, true)
  | .release c => some (c, false)
  | .cgMouse (.button number down) _ _ => some (.button number, down)
  | .cgKey code down _ => some (.key code, down)
  | _ => none

/-- The controls that are down for the operating system after some more events. -/
def heldAfter (held : List Control) (evs : List OsEvent) : List Control :=
  evs.foldl (fun held ev =>
    match ev.edge with
    | some (c, true) => held.insert c
    | some (c, false) => held.filter (· ≠ c)
    | none => held) held

/-- Releases let go of exactly what they name. -/
theorem mem_heldAfter_releases {evs : List OsEvent} (releases : ∀ ev ∈ evs, ∃ c, ev = .release c)
    (held : List Control) (c : Control) :
    c ∈ heldAfter held evs ↔ c ∈ held ∧ .release c ∉ evs := by
  induction evs generalizing held with
  | nil => simp [heldAfter]
  | cons ev evs ih =>
      obtain ⟨d, rfl⟩ := releases _ List.mem_cons_self
      have rest := ih (fun ev member => releases ev (List.mem_cons_of_mem _ member))
        (held.filter (· ≠ d))
      simp only [heldAfter, List.foldl_cons, OsEvent.edge] at rest ⊢
      rw [rest]
      simp only [List.mem_filter, decide_eq_true_eq, List.mem_cons, OsEvent.release.injEq, not_or,
        and_assoc]

/-- `release_all` presses nothing. -/
theorem releaseAll_releases (i : Injector) (ok : Nat → Bool) :
    ∀ ev ∈ (i.releaseAll ok).2, ∃ c, ev = OsEvent.release c := by
  intro ev member
  cases i with
  | uinput s =>
      simp only [Injector.releaseAll, UinputInjector.releaseAll, Prod.map] at member
      split at member
      · obtain ⟨code, -, rfl⟩ := List.mem_map.mp member
        exact ⟨_, rfl⟩
      · cases member
  | x11 s =>
      simp only [Injector.releaseAll, X11Injector.releaseAll, Prod.map] at member
      obtain ⟨⟨ev', n⟩, kept, rfl⟩ := List.mem_map.mp member
      have up := (List.mem_filter.mp kept).1
      have up := List.fst_mem_of_mem_zipIdx up
      rcases List.mem_append.mp up with key | button
      · obtain ⟨code, -, rfl⟩ := List.mem_map.mp key
        exact ⟨_, rfl⟩
      · obtain ⟨number, -, rfl⟩ := List.mem_map.mp button
        exact ⟨_, rfl⟩
  | mac s => cases member

end ReachMyDevice
