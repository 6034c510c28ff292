import ReachMyDevice.Lib.Framing
import ReachMyDevice.Lib.LittleEndian
import ReachMyDevice.Protocol

/-!
# Messages between the broker and its agents

A frame is a length of four bytes, the lowest first, and the serialised
message. The serialiser is an argument. The bytes arrive in pieces.
-/
namespace ReachMyDevice
open Framing

def maxFrameBytes : UInt32 := 64 * 1024 * 1024

/-- `postcard`, for one type of messages. -/
structure Postcard (M E : Type*) where
  toStdvec : M → Except E Bytes
  fromBytes : Bytes → Except E M

/-- What was serialised is read back. -/
def Postcard.RoundTrips {M E : Type*} (codec : Postcard M E) : Prop :=
  ∀ msg buf, codec.toStdvec msg = .ok buf → codec.fromBytes buf = .ok msg

inductive IpcError (E : Type*)
  | codec (e : E)
  /-- The stream ends where more is to be read. -/
  | unexpectedEof
  | message (text : String)
  deriving DecidableEq

/-- What arrives, in the pieces that the calls of `read` return; an empty one would be the end. -/
abbrev Arrivals := List {piece : Bytes // piece ≠ []}

def Arrivals.bytes (r : Arrivals) : Bytes := r.flatMap (·.val)

/-- The loop of `read_exact`: it reads until the buffer is full. -/
def readExact {E : Type*} : Nat → Arrivals → Except (IpcError E) (Bytes × Arrivals)
  | 0, r => .ok ([], r)
  | _ + 1, [] => .error .unexpectedEof
  | n + 1, piece :: r =>
    if longer : n + 1 < piece.val.length then
      .ok (piece.val.take (n + 1), ⟨piece.val.drop (n + 1), by simp [longer]⟩ :: r)
    else
      match readExact (n + 1 - piece.val.length) r with
      | .ok (buf, r) => .ok (piece.val ++ buf, r)
      | .error e => .error e

namespace Postcard
variable {M E : Type*} (codec : Postcard M E)

/-- What has been written, with the message if it is accepted. -/
def writeMsg (w : Bytes) (msg : M) : Except (IpcError E) Unit × Bytes :=
  match codec.toStdvec msg with
  | .error e => (.error (.codec e), w)
  | .ok buf =>
    if 2 ^ 32 ≤ buf.length then
      (.error (.message s!"ipc message too large: {buf.length} bytes"), w)
    else
      let len := UInt32.ofNat buf.length
      if maxFrameBytes < len then
        (.error (.message s!"ipc message too large: {len} bytes (cap {maxFrameBytes})"), w)
      else (.ok (), w ++ LittleEndian.encode 4 len.toNat ++ buf)

def readMsg (r : Arrivals) : Except (IpcError E) (M × Arrivals) :=
  match readExact 4 r with
  | .error e => .error e
  | .ok (lenBuf, r) =>
    let len := UInt32.ofNat (LittleEndian.decode lenBuf)
    if maxFrameBytes < len then
      .error (.message s!"ipc frame too large: {len} bytes (cap {maxFrameBytes})")
    else
      match readExact len.toNat r with
      | .error e => .error e
      | .ok (buf, r) =>
        match codec.fromBytes buf with
        | .error e => .error (.codec e)
        | .ok msg => .ok (msg, r)

/-- A message that is not accepted is passed over. -/
def writeMsgs (w : Bytes) (msgs : List M) : Bytes :=
  msgs.foldl (fun w msg => (codec.writeMsg w msg).2) w

def accepts (msg : M) : Bool := (codec.writeMsg [] msg).1.isOk

/-- Messages are read until that fails. -/
def readMsgs : Nat → Arrivals → List M × Option (IpcError E)
  | 0, _ => ([], none)
  | fuel + 1, r =>
    match codec.readMsg r with
    | .error e => ([], some e)
    | .ok (msg, r) => let (msgs, e) := readMsgs fuel r; (msg :: msgs, e)

end Postcard
end ReachMyDevice
