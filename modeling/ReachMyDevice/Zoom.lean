import ReachMyDevice.Protocol

/-!
# The digital-zoom rectangle

It is cropped out of the picture, and pointer positions are mapped through it.
-/
namespace ReachMyDevice

structure CropRect where
  x : F64
  y : F64
  w : F64
  h : F64
  deriving DecidableEq, Repr

namespace CropRect

def full : CropRect where
  x := 0
  y := 0
  w := 1
  h := 1

/-- A degenerate or full rectangle collapses to `full`. -/
def sanitized (r : CropRect) : CropRect :=
  let w := r.w.clamp 0 1
  let h := r.h.clamp 0 1
  if !(w.gt 0 && h.gt 0) || (w.ge 1 && h.ge 1) then full
  else { x := r.x.clamp 0 (.sub 1 w), y := r.y.clamp 0 (.sub 1 h), w, h }

def isFull (r : CropRect) : Bool := r.w.ge 1 && r.h.ge 1

def ofSetZoom (z : SetZoom) : CropRect where
  x := z.x
  y := z.y
  w := z.w
  h := z.h

/-- Pointer positions are relative to the visible region; other events pass through. -/
def remap (r : CropRect) (ev : InputEvent) : InputEvent :=
  if r.isFull then ev
  else match ev with
    | .mouseMove m => .mouseMove { x := r.x.add (m.x.mul r.w), y := r.y.add (m.y.mul r.h) }
    | .mouseButton b =>
      .mouseButton { b with x := r.x.add (b.x.mul r.w), y := r.y.add (b.y.mul r.h) }
    | ev => ev

end CropRect
end ReachMyDevice
