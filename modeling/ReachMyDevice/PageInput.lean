import Mathlib.Data.Rat.Defs
import Mathlib.Algebra.Order.Ring.Rat
import ReachMyDevice.Lib.Edges
import ReachMyDevice.Lib.Machine
import ReachMyDevice.WebInput

/-!
# Keys, buttons and fingers on the page of the web viewer

The listeners of `attach_input`, each on its own element: those of the mouse and
of touches are on the video, those of the keys on the window. Motion and the
wheel press nothing, so only the edges of keys and buttons are kept.
-/
namespace ReachMyDevice
open Machines Edges

/-- What a message presses or releases. -/
inductive PageControl
  | key (hid : Nat)
  | button (number : Int)
  deriving DecidableEq, Repr

def tapMs : Rat := 300
def doubleTapMs : Rat := 300
def ghostMs : Rat := 700

/-- `keys` to `elsewhere` are what is physically down, fingers by where they landed; `sent` are
the edges of the messages sent so far. -/
structure PageInput where
  keys : List String := []
  buttons : List Int := []
  onVideo : Nat := 0
  elsewhere : Nat := 0
  modalOpen : Bool := false
  doubletap : Bool := false
  lastTouch : Rat := 0
  moved : Bool := false
  startMs : Rat := 0
  hasPos : Bool := false
  maxFingers : Nat := 0
  fingerDown : Bool := false
  dragging : Bool := false
  lastTapMs : Rat := 0
  /-- The long-press timer is pending. -/
  longPress : Bool := false
  /-- There is a distance to measure a pinch against. -/
  pinching : Bool := false
  sent : List (PageControl × Bool) := []
  deriving DecidableEq

/-- `now` is the clock of the page. Fingers that land or leave in one event are counted by where
they landed. -/
inductive PageEvent
  | keyDown (code : String)
  | keyUp (code : String)
  | mouseDown (button : Int) (inside : Bool) (now : Rat)
  | mouseUp (button : Int) (inside : Bool) (now : Rat)
  | touchStart (onVideo elsewhere : Nat) (now : Rat)
  /-- A finger of the video moves; `far` from where the first one landed. -/
  | touchMove (far : Bool) (now : Rat)
  | touchEnd (onVideo elsewhere : Nat) (now : Rat)
  | touchCancel (onVideo elsewhere : Nat)
  | longPress
  | dragMode (doubletap : Bool)
  | modal (isOpen : Bool)
  deriving DecidableEq

namespace PageInput

/-- `seen` tells which button of the host the number of a message stands for. -/
def button (seen : Int → Int) (number : Int) : PageControl := .button (seen number)

def send (s : PageInput) (c : PageControl) (pressed : Bool) : PageInput :=
  { s with sent := s.sent ++ [(c, pressed)] }

def isGhostMouse (s : PageInput) (now : Rat) : Prop := now - s.lastTouch < ghostMs

instance (s : PageInput) (now : Rat) : Decidable (s.isGhostMouse now) :=
  inferInstanceAs (Decidable (_ < _))

/-- The listener of the mouse: a message for what happens in the video. -/
def onMouse (seen : Int → Int) (s : PageInput) (dom : Int) (pressed inside : Bool) (now : Rat) :
    PageInput :=
  if inside = true ∧ ¬ s.isGhostMouse now then
    s.send (button seen (domButtonToProto dom)) pressed
  else s

def onKey (s : PageInput) (code : String) (pressed : Bool) : PageInput :=
  if s.modalOpen then s
  else
    match codeToHid code with
    | some hid => s.send (.key hid) pressed
    | none => s

/-- A drag-select that is held is released. -/
def dropDrag (seen : Int → Int) (s : PageInput) : PageInput :=
  if s.dragging then { s.send (button seen 0) false with dragging := false } else s

/-- The drag-select presses button 0, not the left button. -/
def startDrag (seen : Int → Int) (s : PageInput) : PageInput :=
  { s.send (button seen 0) true with dragging := true }

/-- A held second tap starts a drag. -/
def tapDrags (s : PageInput) (now : Rat) : Prop :=
  now - s.lastTapMs < doubleTapMs ∧ s.hasPos = true ∧ s.dragging = false

instance (s : PageInput) (now : Rat) : Decidable (s.tapDrags now) :=
  inferInstanceAs (Decidable (_ ∧ _ ∧ _))

/-- The listener of touches that land on the video, `touches` being all on the page. -/
def onTouchStart (seen : Int → Int) (s : PageInput) (touches : Nat) (now : Rat) : PageInput :=
  let s := { s with
    lastTouch := now
    moved := s.fingerDown && s.moved
    maxFingers := max touches s.maxFingers
    fingerDown := true }
  if 2 ≤ touches then { dropDrag seen { s with longPress := false } with pinching := true }
  else
    let s := { s with startMs := now, moved := false }
    if s.doubletap then if s.tapDrags now then s.startDrag seen else s
    else { s with longPress := true }

def onTouchMove (s : PageInput) (touches : Nat) (far : Bool) (now : Rat) : PageInput :=
  let s := { s with lastTouch := now }
  if touches = 2 then
    if 3 ≤ s.maxFingers then { s with pinching := false }
    else if s.pinching then { s with moved := true }
    else { s with pinching := true }
  else
    let s :=
      if far = true ∧ s.moved = false then { s with moved := true, longPress := false } else s
    if touches ≤ 1 then { s with hasPos := true } else s

/-- The button that a tap clicks. -/
def tapButton (s : PageInput) (now : Rat) : Option Int :=
  if s.dragging ∨ s.moved then none
  else if s.maxFingers = 1 then some (domButtonToProto 0)
  else if s.maxFingers = 2 ∧ now - s.startMs < tapMs then some (domButtonToProto 2)
  else none

/-- The listener of touches that leave the video. -/
def onTouchEnd (seen : Int → Int) (s : PageInput) (touches : Nat) (now : Rat) : PageInput :=
  let s := { s with lastTouch := now, pinching := false }
  if touches ≠ 0 then s
  else
    let click := s.tapButton now
    let fingers := s.maxFingers
    let s := { s with fingerDown := false, longPress := false, maxFingers := 0 }
    match click with
    | none => s.dropDrag seen
    | some number =>
      let s := { s with
        hasPos := true, lastTapMs := if fingers = 1 then now else s.lastTapMs }
      (s.send (button seen number) true).send (button seen number) false

/-- The timer has an effect. -/
def longPressDrags (s : PageInput) : Prop :=
  s.fingerDown = true ∧ s.moved = false ∧ s.maxFingers = 1 ∧ s.dragging = false

instance (s : PageInput) : Decidable s.longPressDrags :=
  inferInstanceAs (Decidable (_ ∧ _ ∧ _ ∧ _))

def onLongPress (seen : Int → Int) (s : PageInput) : PageInput :=
  let s := { s with longPress := false }
  if s.longPressDrags then { s with hasPos := true }.startDrag seen else s

/-- A press of what is down, a release of what is up and fingers that are not there are no events;
a key that is held repeats. -/
def step (seen : Int → Int) (s : PageInput) : PageEvent → Option PageInput
  | .keyDown code => some ({ s with keys := s.keys.insert code }.onKey code true)
  | .keyUp code =>
    if code ∈ s.keys then some ({ s with keys := s.keys.filter (· ≠ code) }.onKey code false)
    else none
  | .mouseDown dom inside now =>
    if dom ∈ s.buttons then none
    else some ({ s with buttons := dom :: s.buttons }.onMouse seen dom true inside now)
  | .mouseUp dom inside now =>
    if dom ∈ s.buttons then
      some ({ s with buttons := s.buttons.filter (· ≠ dom) }.onMouse seen dom false inside now)
    else none
  | .touchStart onVideo elsewhere now =>
    let s := { s with onVideo := s.onVideo + onVideo, elsewhere := s.elsewhere + elsewhere }
    if onVideo = 0 then some s else some (s.onTouchStart seen (s.onVideo + s.elsewhere) now)
  | .touchMove far now =>
    if s.onVideo = 0 then none else some (s.onTouchMove (s.onVideo + s.elsewhere) far now)
  | .touchEnd onVideo elsewhere now =>
    if onVideo ≤ s.onVideo ∧ elsewhere ≤ s.elsewhere then
      let s := { s with onVideo := s.onVideo - onVideo, elsewhere := s.elsewhere - elsewhere }
      if onVideo = 0 then some s else some (s.onTouchEnd seen (s.onVideo + s.elsewhere) now)
    else none
  -- No listener.
  | .touchCancel onVideo elsewhere =>
    if onVideo ≤ s.onVideo ∧ elsewhere ≤ s.elsewhere then
      some { s with onVideo := s.onVideo - onVideo, elsewhere := s.elsewhere - elsewhere }
    else none
  | .longPress => if s.longPress then some (s.onLongPress seen) else none
  | .dragMode doubletap => some { s with doubletap }
  | .modal isOpen => some { s with modalOpen := isOpen }

def machine (seen : Int → Int) : Machine PageInput PageEvent where
  init := (· = {})
  step := step seen

end PageInput
end ReachMyDevice
