import ReachMyDevice.HostControl

/-!
# Screen capture and encoding

A controller owns the live capture session. What the session captures waits in a
channel, of which an encode thread only ever takes the newest frame.
-/
namespace ReachMyDevice

structure Frame where
  data : Bytes
  width : Nat
  height : Nat
  bytesPerRow : Nat
  captureTsMicros : Nat
  deriving DecidableEq, Repr

structure DisplayInfo where
  index : Nat
  width : Nat
  height : Nat
  deriving DecidableEq, Repr

/-- A live session, with what it was started for. -/
structure CaptureSession where
  display : Nat
  showCursor : Bool
  deriving DecidableEq, Repr

/-- `ending` counts the sessions that were dropped and whose threads still run: a drop only
tells them to stop. -/
structure CaptureController where
  showCursor : Bool
  displays : List DisplayInfo
  current : Nat
  handle : Option CaptureSession
  ending : Nat
  forceKeyframe : Bool
  deriving DecidableEq, Repr

namespace CaptureController

def start (displays : List DisplayInfo) (displayIndex : Nat) : CaptureController where
  showCursor := true
  displays := displays
  current := displayIndex
  handle := none
  ending := 0
  forceKeyframe := true

/-- The session is dropped, if there is one. -/
def dropHandle (c : CaptureController) : CaptureController :=
  { c with handle := none, ending := c.ending + c.handle.toList.length }

/-- `started`: the platform gives a session. It replaces the one before. -/
def startCapture (c : CaptureController) (started : Bool) : CaptureController :=
  if started then
    { c.dropHandle with
      handle := some { display := c.current, showCursor := c.showCursor }, forceKeyframe := true }
  else c

def resume (c : CaptureController) (started : Bool) : CaptureController :=
  if c.handle.isSome then c else c.startCapture started

def pause (c : CaptureController) : CaptureController := c.dropHandle

def setShowCursor (c : CaptureController) (visible started : Bool) : CaptureController :=
  if c.showCursor = visible then c
  else
    let c := { c with showCursor := visible }
    if c.handle.isNone then c else c.startCapture started

def select (c : CaptureController) (id : Nat) (started : Bool) : CaptureController :=
  if id = c.current then c
  else if max c.displays.length 1 ≤ id then c
  else
    let c := { c with current := id }
    if c.handle.isNone then c else c.startCapture started

def descriptors (c : CaptureController) : List DisplayDescriptor :=
  c.displays.map fun d => {
    id := d.index, width := d.width, height := d.height
    name := "Display " ++ toString (d.index + 1), primary := d.index == 0 }

/-- No session is live or ending. -/
structure Off (c : CaptureController) : Prop where
  handle : c.handle = none
  ending : c.ending = 0

theorem Off.pause {c : CaptureController} (h : c.Off) : c.pause.Off := by
  constructor
  · rfl
  · simp [CaptureController.pause, dropHandle, h.handle, h.ending]

/-- Only `resume` makes a controller that is off capture. -/
theorem Off.setShowCursor {c : CaptureController} (h : c.Off) (visible started : Bool) :
    (c.setShowCursor visible started).Off := by
  unfold CaptureController.setShowCursor
  split
  · exact h
  · simp only [h.handle, Option.isNone_none, if_true]
    exact ⟨rfl, h.ending⟩

theorem Off.select {c : CaptureController} (h : c.Off) (id : Nat) (started : Bool) :
    (c.select id started).Off := by
  unfold CaptureController.select
  split
  · exact h
  · split
    · exact h
    · simp only [h.handle, Option.isNone_none, if_true]
      exact ⟨rfl, h.ending⟩

end CaptureController

/-- A frame in the encoder: how it is cropped, and whether it must become a keyframe. -/
structure Encoding where
  frame : Frame
  crop : CropRect
  force : Bool
  deriving DecidableEq, Repr

/-- A controller with the encode thread behind it, and the channel between them. -/
structure Pipeline where
  ctl : CaptureController
  frames : List Frame
  encoding : Option Encoding
  deriving DecidableEq, Repr

inductive PipelineLabel
  | captured (frame : Frame)
  /-- The threads of a dropped session have stopped. -/
  | ended
  /-- The thread takes the newest frame. -/
  | take
  /-- The encoder returns: `none` is an error, or nothing for this frame. -/
  | encoded (out : Option VideoFrame)

namespace Pipeline

def new (ctl : CaptureController) : Pipeline where
  ctl := ctl
  frames := []
  encoding := none

/-- One turn of the capture session or of the encode thread, which drops the frame it has
taken when the `gate` is shut. -/
def step (gate : Bool) (crop : CropRect) (p : Pipeline) :
    PipelineLabel → Option (Pipeline × List VideoFrame)
  | .captured frame =>
    if p.ctl.handle.isSome ∨ 0 < p.ctl.ending then some ({ p with frames := p.frames ++ [frame] }, [])
    else none
  | .ended =>
    if 0 < p.ctl.ending then
      some ({ p with ctl := { p.ctl with ending := p.ctl.ending - 1 } }, [])
    else none
  | .take =>
    match p.encoding, p.frames.getLast? with
    | none, some frame =>
      if gate then
        some ({ ctl := { p.ctl with forceKeyframe := false }, frames := [],
                encoding := some { frame, crop, force := p.ctl.forceKeyframe } }, [])
      else some ({ p with frames := [] }, [])
    | _, _ => none
  | .encoded out =>
    match p.encoding with
    | none => none
    | some _ => some ({ p with encoding := none }, out.toList)

/-- Nothing is captured, waits or is encoded. -/
structure Stopped (p : Pipeline) : Prop where
  off : p.ctl.Off
  frames : p.frames = []
  encoding : p.encoding = none

instance (p : Pipeline) : Decidable p.Stopped :=
  decidable_of_iff (p.ctl.handle = none ∧ p.ctl.ending = 0 ∧ p.frames = [] ∧ p.encoding = none)
    ⟨fun ⟨h, d, f, e⟩ => ⟨⟨h, d⟩, f, e⟩,
      fun h => ⟨h.off.handle, h.off.ending, h.frames, h.encoding⟩⟩

/-- Behind a shut gate the encoder stays empty. -/
theorem step_shut {crop : CropRect} {p p' : Pipeline} {l : PipelineLabel}
    {out : List VideoFrame} (empty : p.encoding = none)
    (taken : p.step false crop l = some (p', out)) : p'.encoding = none ∧ out = [] := by
  cases l with
  | captured frame =>
      obtain ⟨-, same⟩ := Option.ite_none_right_eq_some.mp taken
      cases same
      exact ⟨empty, rfl⟩
  | ended =>
      obtain ⟨-, same⟩ := Option.ite_none_right_eq_some.mp taken
      cases same
      exact ⟨empty, rfl⟩
  | take =>
      simp only [step, empty] at taken
      split at taken
      · cases taken
        exact ⟨rfl, rfl⟩
      · cases taken
  | encoded made =>
      simp only [step, empty] at taken
      cases taken

/-- A stopped pipeline does nothing by itself. -/
theorem Stopped.step {gate : Bool} {crop : CropRect} {p : Pipeline} (h : p.Stopped)
    (l : PipelineLabel) : p.step gate crop l = none := by
  cases l <;> simp [Pipeline.step, h.off.handle, h.off.ending, h.frames, h.encoding]

end Pipeline
end ReachMyDevice
