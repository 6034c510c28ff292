import ReachMyDevice.Lib.Edges
import ReachMyDevice.Lib.Histories
import ReachMyDevice.ViewerPhases

/-!
# Keys and buttons of the native viewer

What the window is told of keys and buttons, and what of it goes to the host.
A change of focus reaches no handler.
-/
namespace ReachMyDevice
open Machines Edges Histories

/-- The physical keys that are mapped, with their usages on the keyboard page. -/
def winitKeys : List (String × Nat) :=
  [("KeyA", 0x04), ("KeyB", 0x05), ("KeyC", 0x06), ("KeyD", 0x07), ("KeyE", 0x08),
   ("KeyF", 0x09), ("KeyG", 0x0A), ("KeyH", 0x0B), ("KeyI", 0x0C), ("KeyJ", 0x0D),
   ("KeyK", 0x0E), ("KeyL", 0x0F), ("KeyM", 0x10), ("KeyN", 0x11), ("KeyO", 0x12),
   ("KeyP", 0x13), ("KeyQ", 0x14), ("KeyR", 0x15), ("KeyS", 0x16), ("KeyT", 0x17),
   ("KeyU", 0x18), ("KeyV", 0x19), ("KeyW", 0x1A), ("KeyX", 0x1B), ("KeyY", 0x1C),
   ("KeyZ", 0x1D), ("Digit1", 0x1E), ("Digit2", 0x1F), ("Digit3", 0x20), ("Digit4", 0x21),
   ("Digit5", 0x22), ("Digit6", 0x23), ("Digit7", 0x24), ("Digit8", 0x25), ("Digit9", 0x26),
   ("Digit0", 0x27), ("Enter", 0x28), ("Escape", 0x29), ("Backspace", 0x2A), ("Tab", 0x2B),
   ("Space", 0x2C), ("Minus", 0x2D), ("Equal", 0x2E), ("BracketLeft", 0x2F),
   ("BracketRight", 0x30), ("Backslash", 0x31), ("Semicolon", 0x33), ("Quote", 0x34),
   ("Backquote", 0x35), ("Comma", 0x36), ("Period", 0x37), ("Slash", 0x38), ("CapsLock", 0x39),
   ("F1", 0x3A), ("F2", 0x3B), ("F3", 0x3C), ("F4", 0x3D), ("F5", 0x3E), ("F6", 0x3F),
   ("F7", 0x40), ("F8", 0x41), ("F9", 0x42), ("F10", 0x43), ("F11", 0x44), ("F12", 0x45),
   ("Home", 0x4A), ("PageUp", 0x4B), ("Delete", 0x4C), ("End", 0x4D), ("PageDown", 0x4E),
   ("ArrowRight", 0x4F), ("ArrowLeft", 0x50), ("ArrowDown", 0x51), ("ArrowUp", 0x52),
   ("ControlLeft", 0xE0), ("ShiftLeft", 0xE1), ("AltLeft", 0xE2), ("SuperLeft", 0xE3),
   ("ControlRight", 0xE4), ("ShiftRight", 0xE5), ("AltRight", 0xE6), ("SuperRight", 0xE7)]

def winitKeycodeToHid (code : String) : Option Nat := winitKeys.lookup code

/-- What a message presses or releases. -/
inductive ViewerControl
  | key (hidUsage : Nat)
  | button (button : Int)
  deriving DecidableEq

inductive PhysicalControl
  | key (code : String)
  | button (button : WinitMouseButton)
  deriving DecidableEq

/-- What it is for the host, if it is mapped. -/
def PhysicalControl.control : PhysicalControl → Option ViewerControl
  | .key code => (winitKeycodeToHid code).map .key
  | .button b => (mapMouseButton b).map .button

/-- The key or button that an event is about, and whether it went down. -/
def WindowEvent.edge : WindowEvent → Option (PhysicalControl × Bool)
  | .mouseInput pressed button => some (.button button, pressed)
  | .keyboardInput pressed code => code.map fun code => (.key code, pressed)
  | .cursorMoved .. | .lineDelta .. | .pixelDelta .. | .modifiersChanged _ | .droppedFile _ => none

/-- The press that shows and hides the panel. -/
def WindowEvent.togglesHud : WindowEvent → Bool
  | .keyboardInput true (some code) => code = "F1"
  | _ => false

def SessionCall.edge : SessionCall → Option (ViewerControl × Bool)
  | .sendInput (.key k) => some (.key k.hidUsage, k.pressed)
  | .sendInput (.mouseButton b) => some (.button b.button, b.pressed)
  | _ => none

/-- The presses and releases that the host of the live session was sent. -/
def ViewerApp.sent (s : ViewerApp) : List (ViewerControl × Bool) :=
  (s.session.getD []).filterMap SessionCall.edge

def winitEnv (thisDeviceId : String) : ViewerAppEnv := { thisDeviceId, winitKeycodeToHid }

namespace ViewerRun

def delivered (l : ViewerAppLabel) : List (PhysicalControl × Bool) :=
  match l with
  | .window ev _ => ev.edge.toList
  | _ => []

/-- What the window was told of keys and buttons; and what of it in the session that is live, each
time with whether it found input forwarded. -/
structure WindowLog where
  edges : List (PhysicalControl × Bool)
  live : List (PhysicalControl × Bool × Bool)

/-- What becomes of an event depends on the modes it finds. -/
def found (s : ViewerApp) (l : ViewerAppLabel) : List (PhysicalControl × Bool × Bool) :=
  match l with
  | .window ev eguiConsumed =>
    ev.edge.toList.map fun e => (e.1, e.2, s.forwardingInput eguiConsumed && !ev.togglesHud)
  | _ => []

/-- A confirmed host is another session. -/
def note (s : ViewerRun) (l : ViewerAppLabel) (s' : ViewerRun) (log : WindowLog) : WindowLog where
  edges := log.edges ++ delivered l
  live :=
    match l with
    | .click (.confirm ..) => []
    | l => if s'.app.session.isSome then log.live ++ found s.app l else []

/-- The application, and what its window was told. -/
def told (env : ViewerAppEnv) : Machine (ViewerRun × WindowLog) ViewerAppLabel :=
  (machine env).recording (fun _ => ⟨[], []⟩) note

/-- What the window was told is up the host was told is up, and nothing is let go that the host
was not told is down. -/
def BalancedFor (t : ViewerRun × WindowLog) : Prop :=
  ∀ p c, p.control = some c → (isDown p t.2.edges = false → Released c t.1.app.sent) ∧
    Paired c t.1.app.sent

/-- A press that found input forwarded; the one that toggles the panel does not. -/
def Pressed (p : PhysicalControl) (e : PhysicalControl × Bool × Bool) : Prop := e = (p, true, true)

/-- A release, whatever it found. -/
def LetGo (p : PhysicalControl) (e : PhysicalControl × Bool × Bool) : Prop :=
  e.1 = p ∧ e.2.1 = false

instance (p : PhysicalControl) : DecidablePred (Pressed p) :=
  fun e => inferInstanceAs (Decidable (e = (p, true, true)))

instance (p : PhysicalControl) : DecidablePred (LetGo p) :=
  fun _ => inferInstanceAs (Decidable (_ ∧ _))

/-- A release of a mapped key or button finds input forwarded exactly if a press of it did, in this
session and after the release before. -/
def AsPressed (t : ViewerRun × WindowLog) : ViewerAppLabel → Prop
  | .window ev eguiConsumed => ∀ e ∈ ev.edge, e.2 = false → e.1.control.isSome = true →
      (t.1.app.forwardingInput eguiConsumed = true ↔ Since (Pressed e.1) (LetGo e.1) t.2.live)
  | .update .. | .click _ | .jobDone .. | .ping => True

instance (t : ViewerRun × WindowLog) : ∀ l, Decidable (AsPressed t l)
  | .window ev eguiConsumed =>
    inferInstanceAs (Decidable (∀ e ∈ ev.edge, e.2 = false → e.1.control.isSome = true →
      (t.1.app.forwardingInput eguiConsumed = true ↔
        Since (Pressed e.1) (LetGo e.1) t.2.live)))
  | .update .. | .click _ | .jobDone .. | .ping => .isTrue trivial

end ViewerRun
end ReachMyDevice
