import Mathlib.Data.List.AList
import ReachMyDevice.AnnexB
import ReachMyDevice.Lib.Machine

/-!
# The software encoders

What a library encoder was built for, and the frames it was given, are kept
beside it. Whether a rate is too far from another is compared in `f32`, which is
a parameter here.
-/
namespace ReachMyDevice
open Machines

structure EncoderConfig where
  width : Nat
  height : Nat
  fps : Nat
  bitrateBps : Nat
  deriving DecidableEq, Repr

structure EncodedFrame where
  data : Bytes
  isKeyframe : Bool
  captureTsMicros : Nat
  deriving DecidableEq, Repr

/-- A frame to be encoded; its pixels are left out. -/
structure EncodeCall where
  width : Nat
  height : Nat
  captureTsMicros : Nat
  forceKeyframe : Bool
  deriving DecidableEq, Repr

def EncodeCall.size (call : EncodeCall) : Nat × Nat := (call.width, call.height)

/-! ## rav1e -/

/-- A context numbers the frames it accepts by their places. -/
structure RavContext where
  fps : Nat
  bitrateBps : Nat
  size : Nat × Nat
  frames : List EncodeCall
  /-- The numbers of the frames that are not emitted yet. -/
  waiting : List Nat
  deriving DecidableEq

namespace RavContext

def sendFrame (c : RavContext) (call : EncodeCall) : RavContext :=
  { c with frames := c.frames ++ [call], waiting := c.waiting ++ [c.frames.length] }

def emit (c : RavContext) (number : Nat) : RavContext := { c with waiting := c.waiting.erase number }

end RavContext

inductive RavReceive
  | packet (inputFrameno : Nat) (data : Bytes) (isKey : Bool)
  | needMoreData
  | failed (reason : String)
  deriving DecidableEq

/-- How the calls of the library go; an error carries its text. -/
structure RavIo where
  build : Option String
  convert : Option String
  sendFrame : Option String
  receivePacket : RavReceive
  deriving DecidableEq

structure Rav1eEncoder where
  ctx : RavContext
  cfg : EncoderConfig
  dims : Nat × Nat
  pendingBitrateBps : Nat
  tsByFrameno : AList fun _ : Nat => Nat
  nextFrameno : Nat

namespace Rav1eEncoder

def buildContext (cfg : EncoderConfig) (size : Nat × Nat) : RavContext where
  fps := cfg.fps
  bitrateBps := cfg.bitrateBps
  size := size
  frames := []
  waiting := []

def new (cfg : EncoderConfig) : Rav1eEncoder where
  ctx := buildContext cfg (max cfg.width 2, max cfg.height 2)
  pendingBitrateBps := cfg.bitrateBps
  cfg := cfg
  dims := (max cfg.width 2, max cfg.height 2)
  tsByFrameno := ∅
  nextFrameno := 0

variable (drifted : Nat → Nat → Bool)

/-- The rate moved too far, or the frame has another size. -/
def rebuilds (s : Rav1eEncoder) (size : Nat × Nat) : Bool :=
  drifted s.pendingBitrateBps s.cfg.bitrateBps || s.dims ≠ size

def maybeReconfigure (s : Rav1eEncoder) (size : Nat × Nat) (build : Option String) :
    Rav1eEncoder × Except String Unit :=
  if s.rebuilds drifted size then
    let s := { s with cfg := { s.cfg with bitrateBps := s.pendingBitrateBps }, dims := size }
    match build with
    | some e => (s, .error ("rav1e context init: " ++ e))
    | none =>
      ({ s with ctx := buildContext s.cfg size, tsByFrameno := ∅, nextFrameno := 0 }, .ok ())
  else (s, .ok ())

/-- Up to the submission of the frame. -/
def submit (s : Rav1eEncoder) (call : EncodeCall) (io : RavIo) : Rav1eEncoder × Except String Unit :=
  match s.maybeReconfigure drifted call.size io.build with
  | (s, .error e) => (s, .error e)
  | (s, .ok ()) =>
    match io.convert with
    | some e => (s, .error ("bgra->i420: " ++ e))
    | none =>
      let frameno := s.nextFrameno
      let s := { s with
        nextFrameno := s.nextFrameno + 1
        tsByFrameno := s.tsByFrameno.insert frameno call.captureTsMicros }
      match io.sendFrame with
      | some e => (s, .error ("rav1e send_frame: " ++ e))
      | none => ({ s with ctx := s.ctx.sendFrame call }, .ok ())

/-- At most one packet is pulled. -/
def receive (s : Rav1eEncoder) (call : EncodeCall) :
    RavReceive → Rav1eEncoder × Except String (Option EncodedFrame)
  | .packet inputFrameno data isKey =>
    let ts := (s.tsByFrameno.lookup inputFrameno).getD call.captureTsMicros
    ({ s with tsByFrameno := s.tsByFrameno.erase inputFrameno, ctx := s.ctx.emit inputFrameno },
      .ok (some { data, isKeyframe := isKey, captureTsMicros := ts }))
  | .needMoreData => (s, .ok none)
  | .failed e => (s, .error ("rav1e receive_packet: " ++ e))

def encode (s : Rav1eEncoder) (call : EncodeCall) (io : RavIo) :
    Rav1eEncoder × Except String (Option EncodedFrame) :=
  match s.submit drifted call io with
  | (s, .error e) => (s, .error e)
  | (s, .ok ()) => s.receive call io.receivePacket

def setTargetBitrate (s : Rav1eEncoder) (bps : Nat) : Rav1eEncoder :=
  { s with pendingBitrateBps := bps }

end Rav1eEncoder

/-- A packet is that of a frame that waits for it, and a context that holds more frames than its
latency gives one. -/
def RavContext.Answers (latency : Nat) (c : RavContext) : RavReceive → Prop
  | .packet inputFrameno _ _ => inputFrameno ∈ c.waiting
  | .needMoreData | .failed _ => c.waiting.length ≤ latency

instance (latency : Nat) (c : RavContext) : ∀ r, Decidable (c.Answers latency r)
  | .packet inputFrameno _ _ => inferInstanceAs (Decidable (inputFrameno ∈ c.waiting))
  | .needMoreData | .failed _ => inferInstanceAs (Decidable (c.waiting.length ≤ latency))

inductive RavLabel
  | encode (call : EncodeCall) (io : RavIo)
  | setTargetBitrate (bps : Nat)

namespace Rav1eEncoder

/-- The library answers as it does, if it is asked. -/
def answered (drifted : Nat → Nat → Bool) (latency : Nat) (s : Rav1eEncoder) (call : EncodeCall)
    (io : RavIo) : Bool :=
  match s.submit drifted call io with
  | (s, .ok ()) => s.ctx.Answers latency io.receivePacket
  | (_, .error _) => true

def step (drifted : Nat → Nat → Bool) (latency : Nat) (s : Rav1eEncoder) :
    RavLabel → Option Rav1eEncoder
  | .encode call io =>
    if s.answered drifted latency call io then some (s.encode drifted call io).1 else none
  | .setTargetBitrate bps => some (s.setTargetBitrate bps)

def machine (drifted : Nat → Nat → Bool) (latency : Nat) : Machine Rav1eEncoder RavLabel where
  init s := ∃ cfg, s = new cfg
  step := step drifted latency

variable {drifted : Nat → Nat → Bool} {s s' : Rav1eEncoder} {call : EncodeCall} {io : RavIo}

/-- What becomes of a frame up to its submission. -/
inductive Submitted (drifted : Nat → Nat → Bool) (s : Rav1eEncoder) (call : EncodeCall)
    (io : RavIo) : Rav1eEncoder → Except String Unit → Prop
  | unbuilt (reason : String) (due : s.rebuilds drifted call.size = true)
      (fails : io.build = some reason) :
      Submitted drifted s call io
        { s with cfg := { s.cfg with bitrateBps := s.pendingBitrateBps }, dims := call.size }
        (.error ("rav1e context init: " ++ reason))
  | unconverted {t : Rav1eEncoder} (reason : String)
      (ready : s.maybeReconfigure drifted call.size io.build = (t, .ok ()))
      (fails : io.convert = some reason) :
      Submitted drifted s call io t (.error ("bgra->i420: " ++ reason))
  | refused {t : Rav1eEncoder} (reason : String)
      (ready : s.maybeReconfigure drifted call.size io.build = (t, .ok ()))
      (converts : io.convert = none) (fails : io.sendFrame = some reason) :
      Submitted drifted s call io
        { t with
          nextFrameno := t.nextFrameno + 1
          tsByFrameno := t.tsByFrameno.insert t.nextFrameno call.captureTsMicros }
        (.error ("rav1e send_frame: " ++ reason))
  | accepted {t : Rav1eEncoder}
      (ready : s.maybeReconfigure drifted call.size io.build = (t, .ok ()))
      (converts : io.convert = none) (sends : io.sendFrame = none) :
      Submitted drifted s call io
        { t with
          nextFrameno := t.nextFrameno + 1
          tsByFrameno := t.tsByFrameno.insert t.nextFrameno call.captureTsMicros
          ctx := t.ctx.sendFrame call }
        (.ok ())

/-- The two ways in which a frame can be submitted. -/
theorem maybeReconfigure_ok {size : Nat × Nat} {build : Option String} {t : Rav1eEncoder}
    (ready : s.maybeReconfigure drifted size build = (t, .ok ())) :
    s.rebuilds drifted size = false ∧ t = s ∨
      s.rebuilds drifted size = true ∧ build = none ∧
        t = { s with
          cfg := { s.cfg with bitrateBps := s.pendingBitrateBps }, dims := size
          ctx := buildContext { s.cfg with bitrateBps := s.pendingBitrateBps } size
          tsByFrameno := ∅, nextFrameno := 0 } := by
  unfold maybeReconfigure at ready
  split at ready
  · rename_i due
    cases build with
    | some e => cases ready
    | none =>
        cases ready
        exact .inr ⟨due, rfl, rfl⟩
  · rename_i notDue
    cases ready
    exact .inl ⟨Bool.not_eq_true _ ▸ notDue, rfl⟩

theorem submit_cases {r : Except String Unit} (h : s.submit drifted call io = (s', r)) :
    Submitted drifted s call io s' r := by
  unfold submit at h
  split at h
  · rename_i t e ready
    cases h
    unfold maybeReconfigure at ready
    split at ready
    · rename_i due
      simp only at ready
      split at ready
      · rename_i reason fails
        cases ready
        exact .unbuilt reason due fails
      · cases ready
    · cases ready
  · rename_i t ready
    split at h
    · rename_i reason fails
      cases h
      exact .unconverted reason ready fails
    · rename_i converts
      simp only at h
      split at h
      · rename_i reason fails
        cases h
        exact .refused reason ready converts fails
      · rename_i sends
        cases h
        exact .accepted ready converts sends

end Rav1eEncoder

/-! ## openh264 -/

structure OhEncoder where
  built : EncoderConfig
  frames : List EncodeCall
  deriving DecidableEq

/-- How the calls of the library and the clock go, with times in nanoseconds. -/
structure OhIo where
  buildSize : Option String
  nowAtSize : Nat
  nowAtCheck : Nat
  buildRate : Option String
  nowAtRate : Nat
  convert : Option String
  encode : Except String Bytes

structure OpenH264Encoder where
  encoder : OhEncoder
  cfg : EncoderConfig
  pendingBitrateBps : Nat
  lastRebuild : Nat
  deriving DecidableEq

namespace OpenH264Encoder

def rebuildMinInterval : Nat := 4 * 1000000000

def buildEncoder (cfg : EncoderConfig) : OhEncoder where
  built := cfg
  frames := []

def new (cfg : EncoderConfig) (now : Nat) : OpenH264Encoder where
  encoder := buildEncoder cfg
  pendingBitrateBps := cfg.bitrateBps
  cfg := cfg
  lastRebuild := now

def size (s : OpenH264Encoder) : Nat × Nat := (s.cfg.width, s.cfg.height)

/-- A frame of another size comes. -/
def resize (s : OpenH264Encoder) (call : EncodeCall) (io : OhIo) :
    OpenH264Encoder × Except String Unit :=
  if call.size ≠ s.size then
    let s := { s with cfg := { s.cfg with width := call.width, height := call.height } }
    match io.buildSize with
    | some e => (s, .error ("openh264 encoder init: " ++ e))
    | none => ({ s with encoder := buildEncoder s.cfg, lastRebuild := io.nowAtSize }, .ok ())
  else (s, .ok ())

variable (drifted : Nat → Nat → Bool)

/-- The rate moved too far, and the last rebuild is long ago. -/
def rebuilds (s : OpenH264Encoder) (now : Nat) : Bool :=
  drifted s.pendingBitrateBps s.cfg.bitrateBps && rebuildMinInterval ≤ now - s.lastRebuild

def maybeReconfigure (s : OpenH264Encoder) (io : OhIo) : OpenH264Encoder × Except String Unit :=
  if s.rebuilds drifted io.nowAtCheck then
    let s := { s with cfg := { s.cfg with bitrateBps := s.pendingBitrateBps } }
    match io.buildRate with
    | some e => (s, .error ("openh264 encoder init: " ++ e))
    | none => ({ s with encoder := buildEncoder s.cfg, lastRebuild := io.nowAtRate }, .ok ())
  else (s, .ok ())

/-- Both rebuilds, as far as they are due. -/
def reconfigure (s : OpenH264Encoder) (call : EncodeCall) (io : OhIo) :
    OpenH264Encoder × Except String Unit :=
  match s.resize call io with
  | (s, .error e) => (s, .error e)
  | (s, .ok ()) => s.maybeReconfigure drifted io

def encode (s : OpenH264Encoder) (call : EncodeCall) (io : OhIo) :
    OpenH264Encoder × Except String (Option EncodedFrame) :=
  match s.reconfigure drifted call io with
  | (s, .error e) => (s, .error e)
  | (s, .ok ()) =>
    match io.convert with
    | some e => (s, .error ("bgra->i420: " ++ e))
    | none =>
      let s := { s with encoder := { s.encoder with frames := s.encoder.frames ++ [call] } }
      match io.encode with
      | .error e => (s, .error ("openh264 encode: " ++ e))
      | .ok data =>
        if data.isEmpty then (s, .ok none)
        else (s, .ok (some {
          data, isKeyframe := AnnexB.containsIdr data, captureTsMicros := call.captureTsMicros }))

def setTargetBitrate (s : OpenH264Encoder) (bps : Nat) : OpenH264Encoder :=
  { s with pendingBitrateBps := bps }

end OpenH264Encoder

inductive OhLabel
  | encode (call : EncodeCall) (io : OhIo)
  | setTargetBitrate (bps : Nat)

namespace OpenH264Encoder

def step (drifted : Nat → Nat → Bool) (s : OpenH264Encoder) : OhLabel → Option OpenH264Encoder
  | .encode call io => some (s.encode drifted call io).1
  | .setTargetBitrate bps => some (s.setTargetBitrate bps)

def machine (drifted : Nat → Nat → Bool) : Machine OpenH264Encoder OhLabel where
  init s := ∃ cfg now, s = new cfg now
  step := step drifted

end OpenH264Encoder
end ReachMyDevice
