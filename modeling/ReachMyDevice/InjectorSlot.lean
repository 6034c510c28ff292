import ReachMyDevice.Lib.Machine
import ReachMyDevice.HostSession

/-!
# What an injector holds down

The controls that are down for the operating system against the pressed set of
the injector. A failed call posts nothing; which handles let go of their
controls when they are closed is up to the system.
-/
namespace ReachMyDevice
open Machines

/-- What the backend has on record as down. -/
def Injector.pressed : Injector → List Control
  | .uinput s => s.pressed.map .key
  | .x11 s => s.pressedKeys.map .key ++ s.pressedButtons.map .button
  | .mac s =>
    (if s.leftDown then [.button 1] else []) ++ (if s.rightDown then [.button 2] else []) ++
      if s.otherDown then [.button 3] else []

/-- A call on the injector, or its replacement. `ok` tells which calls to the system succeed. -/
inductive InjectorCall
  | inject (ev : InputEvent) (ok : Nat → Bool)
  | releaseAll (ok : Nat → Bool)
  | replace (rect : Option MonitorRect) (built : NewInjector)

structure InjectorSlot where
  injector : Option Injector
  /-- What the injector in place holds down. -/
  held : List Control
  /-- What the injectors before it have left down. -/
  left : List Control
  /-- Whether the last call was `release_all`, or a replacement. -/
  released : Bool
  deriving DecidableEq, Repr

namespace InjectorSlot

def start (rect : Option MonitorRect) (built : NewInjector) : InjectorSlot where
  injector := built.build rect
  held := []
  left := []
  released := false

/-- What stays down when the handle of the injector is closed. -/
def leftOver (closes : Injector → Bool) (s : InjectorSlot) : List Control :=
  if s.injector.any closes then [] else s.held

def step (keymap : Keymap) (closes : Injector → Bool) (s : InjectorSlot) :
    InjectorCall → Option InjectorSlot
  | .inject ev ok =>
    match s.injector with
    | none => some { s with released := false }
    | some i =>
      let r := i.inject keymap ok ev
      some { s with injector := some r.1, held := heldAfter s.held r.2, released := false }
  | .releaseAll ok =>
    match s.injector with
    | none => some { s with released := true }
    | some i =>
      let r := i.releaseAll ok
      some { s with injector := some r.1, held := heldAfter s.held r.2, released := true }
  | .replace rect built =>
    some { injector := built.build rect, held := [], left := s.left ++ s.leftOver closes,
           released := true }

def machine (keymap : Keymap) (closes : Injector → Bool) :
    Machine InjectorSlot InjectorCall where
  init s := ∃ rect built, s = start rect built
  step := step keymap closes

/-- Whatever is down is in the pressed set, and nothing is after a release or a replacement. -/
structure Booked (s : InjectorSlot) : Prop where
  tracked : ∀ c ∈ s.held, ∃ i, s.injector = some i ∧ c ∈ i.pressed
  released : s.released = true → s.held = []
  left : s.left = []

end InjectorSlot

/-! ## When a call keeps the books -/

/-- The wheel clicks of a scroll, by the numbers of their buttons. -/
def X11Injector.wheelClicks (w : MouseScroll) : List Nat :=
  (if w.dy.gt 0 then [4] else if w.dy.lt 0 then [5] else []) ++
    if w.dx.gt 0 then [7] else if w.dx.lt 0 then [6] else []

/-- No click, from the call `n` on, fails between its press and its release. -/
def X11Injector.clicksWhole (ok : Nat → Bool) : Nat → List Nat → Prop
  | _, [] => True
  | n, _ :: rest => ok n = true → ok (n + 1) = true ∧ clicksWhole ok (n + 2) rest

/-- The releases that `release_all` makes, in turn. -/
def X11Injector.ups (s : X11Injector) : List OsEvent :=
  s.pressedKeys.map (.release <| .key ·) ++ s.pressedButtons.map (.release <| .button ·)

namespace Injector

/-- A release of a control that is down does not fail; a wheel click is whole; and on macOS, where
keys are not recorded, no key is pressed. -/
def InjectSafe (keymap : Keymap) (held : List Control) (ok : Nat → Bool) :
    Injector → InputEvent → Prop
  | .uinput _, .mouseButton b =>
    b.pressed = false → Control.key (UinputInjector.buttonCode b.button) ∈ held → ok 0 = true
  | .uinput _, .key k =>
    ∀ code, keymap.hidToEvdev k.hidUsage = some code → k.pressed = false →
      Control.key code ∈ held → ok 0 = true
  | .x11 _, .mouseButton b =>
    b.pressed = false → Control.button (X11Injector.buttonNumber b.button) ∈ held →
      ok 0 = true → ok 1 = true
  | .x11 _, .mouseScroll w => X11Injector.clicksWhole ok 0 (X11Injector.wheelClicks w)
  | .x11 _, .key k =>
    ∀ code, keymap.hidToXKeycode k.hidUsage = some code → k.pressed = false →
      Control.key code ∈ held → ok 0 = true
  | .mac _, .mouseButton b =>
    b.pressed = false → Control.button (MacInjector.buttonNumber b.button) ∈ held → ok 0 = true
  | .mac _, .key k =>
    ∀ code, keymap.hidToMacos k.hidUsage = some code → k.pressed = true → ok 0 = false
  | _, _ => True

/-- Every control that is down is let go of; macOS has nothing that lets go. -/
def ReleaseSafe (held : List Control) (ok : Nat → Bool) : Injector → Prop
  | .uinput _ => held = [] ∨ ok 0 = true
  | .x11 s => ∀ c ∈ held, ∃ n, (OsEvent.release c, n) ∈ s.ups.zipIdx ∧ ok n = true
  | .mac _ => held = []

end Injector

namespace InjectorSlot

def Safe (keymap : Keymap) (closes : Injector → Bool) (s : InjectorSlot) : InjectorCall → Prop
  | .inject ev ok => ∀ i, s.injector = some i → i.InjectSafe keymap s.held ok ev
  | .releaseAll ok => ∀ i, s.injector = some i → i.ReleaseSafe s.held ok
  | .replace _ _ => s.held = [] ∨ s.injector.any closes = true

end InjectorSlot

/-! ## Edges -/

theorem heldAfter_nil (held : List Control) : heldAfter held [] = held := rfl

theorem heldAfter_silent (held : List Control) {ev : OsEvent} (silent : ev.edge = none)
    (evs : List OsEvent) : heldAfter held (ev :: evs) = heldAfter held evs := by
  rw [heldAfter, List.foldl_cons, silent]
  rfl

theorem heldAfter_edge (held : List Control) {ev : OsEvent} {d : Control} {down : Bool}
    (edge : ev.edge = some (d, down)) (evs : List OsEvent) :
    heldAfter held (ev :: evs) =
      heldAfter (if down then held.insert d else held.filter (· ≠ d)) evs := by
  rw [heldAfter, List.foldl_cons, edge]
  cases down <;> rfl

theorem heldAfter_press (held : List Control) (d : Control) (evs : List OsEvent) :
    heldAfter held (.press d :: evs) = heldAfter (held.insert d) evs := rfl

theorem heldAfter_release (held : List Control) (d : Control) (evs : List OsEvent) :
    heldAfter held (.release d :: evs) = heldAfter (held.filter (· ≠ d)) evs := rfl

theorem heldAfter_absolute (held : List Control) (x y : Int) (evs : List OsEvent) :
    heldAfter held (.absolute x y :: evs) = heldAfter held evs := rfl

theorem heldAfter_cgKey (held : List Control) (code flags : Nat) (down : Bool)
    (evs : List OsEvent) :
    heldAfter held (.cgKey code down flags :: evs) =
      heldAfter (if down then held.insert (.key code) else held.filter (· ≠ .key code)) evs := by
  cases down <;> rfl

theorem heldAfter_all_silent (held : List Control) {evs : List OsEvent}
    (silent : ∀ ev ∈ evs, ev.edge = none) : heldAfter held evs = held := by
  induction evs with
  | nil => rfl
  | cons ev evs ih =>
      rw [heldAfter_silent held (silent ev List.mem_cons_self)]
      exact ih fun x member => silent x (List.mem_cons_of_mem _ member)

/-- One edge against a record that follows it whether it was posted or not. -/
theorem edge_tracked {P P' : Control → Prop} {held : List Control} {d : Control} {down : Bool}
    (tracked : ∀ c ∈ held, P c)
    (recorded : ∀ c, P' c ↔ if down then c = d ∨ P c else c ≠ d ∧ P c)
    {ev : OsEvent} (edge : ev.edge = some (d, down)) (posted : Bool) :
    (∀ c ∈ heldAfter held (if posted then [ev] else []), P' c) ↔
      (down = false → d ∈ held → posted = true) := by
  cases posted with
  | true =>
      simp only [if_true, heldAfter_edge held edge, heldAfter_nil, recorded]
      refine iff_of_true ?_ fun _ _ => trivial
      intro c member
      cases down with
      | true =>
          rcases List.mem_insert_iff.mp member with rfl | before
          · exact .inl rfl
          · exact .inr (tracked c before)
      | false =>
          obtain ⟨before, other⟩ := List.mem_filter.mp member
          exact ⟨of_decide_eq_true other, tracked c before⟩
  | false =>
      simp only [Bool.false_eq_true, if_false, heldAfter_nil, recorded, imp_false]
      cases down with
      | true => simpa using fun c member => Or.inr (tracked c member)
      | false =>
          simp only [Bool.false_eq_true, if_false, forall_const]
          constructor
          · exact fun h member => (h d member).1 rfl
          · exact fun up c member => ⟨fun same => up (same ▸ member), tracked c member⟩

theorem keyEdge_edge (code : Nat) (down : Bool) : (keyEdge code down).edge = some (.key code, down) := by
  cases down <;> rfl

theorem buttonEdge_edge (number : Nat) (down : Bool) :
    (buttonEdge number down).edge = some (.button number, down) := by
  cases down <;> rfl

theorem mem_track {held : List Nat} (once : held.Nodup) {code : Nat} {down : Bool} (n : Nat) :
    n ∈ track held code down ↔ if down then n = code ∨ n ∈ held else n ≠ code ∧ n ∈ held := by
  cases down with
  | true => simp [track]
  | false => simp [track, once.mem_erase_iff]

theorem track_nodup {held : List Nat} (once : held.Nodup) (code : Nat) (down : Bool) :
    (track held code down).Nodup := by
  cases down with
  | true => exact once.insert
  | false => exact once.erase code

end ReachMyDevice
