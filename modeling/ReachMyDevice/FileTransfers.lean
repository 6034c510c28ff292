import Mathlib.Data.List.AList
import ReachMyDevice.Identity

/-!
# File transfers

The file system is a parameter: `D` is its state, `H` an open file with its
cursor. A hasher is the bytes it has absorbed.
-/
namespace ReachMyDevice

/-- The file-system calls of the receiving side; errors carry their texts. -/
structure DiskOps (D H : Type) where
  createDirAll : D → String → D × Except String Unit
  metadataLen : D → String → Option Nat
  openRead : D → String → Option H
  /-- At most as many bytes as asked for; `none` is an error. -/
  read : D → H → Nat → H × Option Bytes
  openWrite : D → String → D × Except String H
  setLen : D → H → Nat → D
  seekStart : D → H → Nat → H
  writeAll : D → H → Bytes → D × H × Bool
  syncAll : D → H → D
  removeFile : D → String → D
  rename : D → String → String → D × Except String Unit

inductive FileEvent
  | offered (transferId name : String) (size : Nat)
  | progress (transferId : String) (transferred total : Nat)
  | completed (transferId : String) (path : Option String)
  | failed (transferId reason : String)
  deriving DecidableEq, Repr

inductive FileOut
  | out (env : Envelope)
  | event (ev : FileEvent)
  deriving DecidableEq, Repr

structure SendShared where
  acked : Nat
  started : Bool
  cancel : Bool
  deriving DecidableEq, Repr

structure RecvState (H : Type) where
  file : H
  partPath : String
  finalPath : String
  written : Nat
  size : Nat
  lastAck : Nat
  hasher : Bytes
  deriving DecidableEq, Repr

/-- `shared` holds the cells that the manager and its send threads share; `sends` names
the cells of the transfers that are still open. -/
structure FileTransfers (H : Type) where
  downloadDir : String
  recvs : AList fun _ : String => RecvState H
  sends : AList fun _ : String => Nat
  shared : List SendShared

namespace FileTransfers
variable {D H : Type}

def chunkSize : Nat := 16 * 1024
def ackEvery : Nat := 256 * 1024

def new (downloadDir : String) : FileTransfers H where
  downloadDir := downloadDir
  recvs := ∅
  sends := ∅
  shared := []

abbrev Result (D H : Type) := FileTransfers H × D × List FileOut

/-- Strips leading and trailing dots. -/
def trimDots (l : List Char) : List Char :=
  ((l.dropWhile (· == '.')).reverse.dropWhile (· == '.')).reverse

/-- What follows the last separator. -/
def baseName (name : List Char) : List Char :=
  (name.reverse.takeWhile fun c => c != '/' && c != '\\').reverse

def sanitize (name : String) : String :=
  let base := trimDots (baseName name.toList)
  if base.isEmpty then "file" else String.ofList base

def join (dir base : String) : String :=
  if dir = "" then base
  else if dir.toList.getLast? = some '/' then dir ++ base
  else dir ++ "/" ++ base

def withExt (path ext : String) : String := path ++ "." ++ ext

def fail (transferId reason : String) : FileOut := .event (.failed transferId reason)

/-- Hashes what is already on disk; every turn takes at least one of the bytes left. -/
def rehash (disk : DiskOps D H) (d : D) : Nat → H → Nat → Bytes → Bytes
  | 0, _, _, hasher => hasher
  | fuel + 1, h, left, hasher =>
    if left = 0 then hasher
    else match disk.read d h (min left chunkSize) with
      | (_, none) | (_, some []) => hasher
      | (h', some bytes) => rehash disk d fuel h' (left - bytes.length) (hasher ++ bytes)

def onOffer (disk : DiskOps D H) (t : FileTransfers H) (d : D) (o : FileOffer) : Result D H :=
  let finalPath := join t.downloadDir (sanitize o.name)
  let partPath := withExt finalPath "part"
  match disk.createDirAll d t.downloadDir with
  | (d, .error e) => (t, d, [fail o.transferId ("mkdir: " ++ e)])
  | (d, .ok ()) =>
    let resume := min ((disk.metadataLen d partPath).getD 0) o.size
    let hasher :=
      if 0 < resume then
        match disk.openRead d partPath with
        | none => []
        | some f => rehash disk d resume f resume []
      else []
    match disk.openWrite d partPath with
    | (d, .error e) => (t, d, [fail o.transferId ("open .part: " ++ e)])
    | (d, .ok file) =>
      let d := disk.setLen d file resume
      let st : RecvState H := {
        file := disk.seekStart d file resume, partPath, finalPath, written := resume,
        size := o.size, lastAck := resume, hasher }
      ({ t with recvs := t.recvs.insert o.transferId st }, d,
        [.event (.offered o.transferId o.name o.size), .out (fileAck o.transferId resume)])

def onChunk (disk : DiskOps D H) (t : FileTransfers H) (d : D) (c : FileChunk) : Result D H :=
  match t.recvs.lookup c.transferId with
  | none => (t, d, [])
  | some st =>
    if c.offset < st.written then (t, d, [])
    else if st.written < c.offset then (t, d, [fail c.transferId "chunk gap"])
    else match disk.writeAll d st.file c.data with
      | (d, file, false) =>
        ({ t with recvs := t.recvs.insert c.transferId { st with file } }, d,
          [fail c.transferId "write"])
      | (d, file, true) =>
        let written := st.written + c.data.length
        let due := ackEvery ≤ written - st.lastAck ∨ written = st.size
        let st' := { st with
          file, written, hasher := st.hasher ++ c.data,
          lastAck := if due then written else st.lastAck }
        ({ t with recvs := t.recvs.insert c.transferId st' }, d,
          .event (.progress c.transferId written st.size) ::
            if due then [.out (fileAck c.transferId written)] else [])

def onComplete (crypto : Crypto) (disk : DiskOps D H) (t : FileTransfers H) (d : D)
    (c : FileComplete) : Result D H :=
  match t.recvs.lookup c.transferId with
  | none => (t, d, [])
  | some st =>
    let t := { t with recvs := t.recvs.erase c.transferId }
    let d := disk.syncAll d st.file
    if st.written ≠ st.size then
      (t, disk.removeFile d st.partPath, [fail c.transferId "short transfer"])
    else if crypto.sha256 st.hasher ≠ c.sha256 then
      (t, disk.removeFile d st.partPath, [fail c.transferId "integrity check failed"])
    else match disk.rename d st.partPath st.finalPath with
      | (d, .error e) => (t, d, [fail c.transferId ("finalize: " ++ e)])
      | (d, .ok ()) => (t, d, [.event (.completed c.transferId (some st.finalPath))])

def onAck (t : FileTransfers H) (a : FileAck) : FileTransfers H :=
  match t.sends.lookup a.transferId with
  | none => t
  | some cell =>
    { t with shared := t.shared.modify cell fun s => { s with acked := a.offset, started := true } }

/-- A `.part` is kept for a later resume. -/
def onCancel (t : FileTransfers H) (c : FileCancel) : FileTransfers H × List FileOut :=
  let shared :=
    match t.sends.lookup c.transferId with
    | none => t.shared
    | some cell => t.shared.modify cell fun s => { s with cancel := true }
  ({ t with recvs := t.recvs.erase c.transferId, sends := t.sends.erase c.transferId, shared },
    [fail c.transferId c.reason])

/-- `none`: the payload is no file-transfer message. -/
def handle (crypto : Crypto) (disk : DiskOps D H) (t : FileTransfers H) (d : D) :
    Payload → Option (Result D H)
  | .fileOffer o => some (t.onOffer disk d o)
  | .fileChunk c => some (t.onChunk disk d c)
  | .fileAck a => some (t.onAck a, d, [])
  | .fileComplete c => some (t.onComplete crypto disk d c)
  | .fileCancel c => some ((t.onCancel c).1, d, (t.onCancel c).2)
  | _ => none

/-- No transfer is under way in either direction. -/
def idle (t : FileTransfers H) : Prop := t.recvs = ∅ ∧ t.sends = ∅

instance (t : FileTransfers H) : Decidable t.idle :=
  decidable_of_iff (t.recvs.entries.isEmpty = true ∧ t.sends.entries.isEmpty = true) (by
    simp only [idle, List.isEmpty_iff, AList.ext_iff, AList.empty_entries])

/-- A disk for closed runs: it takes everything and keeps nothing. -/
def sampleDisk : DiskOps Unit Unit where
  createDirAll _ _ := ((), .ok ())
  metadataLen _ _ := none
  openRead _ _ := none
  read _ h _ := (h, some [])
  openWrite _ _ := ((), .ok ())
  setLen _ _ _ := ()
  seekStart _ _ _ := ()
  writeAll _ _ _ := ((), (), true)
  syncAll _ _ := ()
  removeFile _ _ := ()
  rename _ _ _ := ((), .ok ())

example : sanitize "..\\..//evil/..rc." = "rc" := by decide

end FileTransfers
end ReachMyDevice
