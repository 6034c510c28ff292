import ReachMyDevice.Lib.FileSystem
import ReachMyDevice.Lib.Machine
import ReachMyDevice.FileTransfers

/-!
# The receiving side on a file system

A label brings one envelope of the peer and says how the file system takes the
calls that its handler makes.
-/
namespace ReachMyDevice
open Machines FileSystem

/-- What happens to each call; an error carries its text. -/
structure IoPlan where
  createDirAll : Option String
  metadata : Bool
  openRead : Bool
  /-- At each place: an error, or the most bytes that one call returns. -/
  read : Nat → Option Nat
  openWrite : Option String
  setLen : Bool
  seek : Bool
  /-- `some k`: nothing can be written after the first `k` bytes. -/
  write : Option Nat
  remove : Bool
  rename : Option String

/-- How many of the bytes that are to be written get written. -/
def IoPlan.stores (plan : IoPlan) (bytes : Bytes) : Nat :=
  min bytes.length (plan.write.getD bytes.length)

/-- Everything works. -/
def IoPlan.reliable : IoPlan where
  createDirAll := none
  metadata := true
  openRead := true
  read _ := some FileTransfers.chunkSize
  openWrite := none
  setLen := true
  seek := true
  write := none
  remove := true
  rename := none

abbrev FileStore := Fs String UInt8

/-- The calls of the receiving side, as they go under a plan. A read returns at least one
byte before the end of the file. -/
def diskOps (plan : IoPlan) : DiskOps FileStore Handle where
  createDirAll d _ :=
    match plan.createDirAll with
    | some e => (d, .error e)
    | none => (d, .ok ())
  metadataLen d path := if plan.metadata then d.len path else none
  openRead d path := if plan.openRead then d.openRead path else none
  read d h n :=
    match plan.read h.cursor with
    | none => (h, none)
    | some most =>
      let bytes := d.readAt h (min n (max 1 most))
      ({ h with cursor := h.cursor + bytes.length }, some bytes)
  openWrite d path :=
    match plan.openWrite with
    | some e => (d, .error e)
    | none => ((d.openWrite path).1, .ok (d.openWrite path).2)
  setLen d h n := if plan.setLen then d.setLen 0 h n else d
  seekStart _ h n := if plan.seek then { h with cursor := n } else h
  writeAll d h bytes :=
    (d.write 0 h (bytes.take (plan.stores bytes)),
      { h with cursor := h.cursor + plan.stores bytes }, plan.stores bytes = bytes.length)
  syncAll d _ := d
  removeFile d path := if plan.remove then d.remove path else d
  rename d old new :=
    match plan.rename with
    | some e => (d, .error e)
    | none =>
      match d.rename old new with
      | none => (d, .error "not found")
      | some d' => (d', .ok ())

section
variable {plan : IoPlan} {d d' : FileStore} {h h' : Handle}

theorem createDirAll_fs {dir : String} {r : Except String Unit}
    (made : (diskOps plan).createDirAll d dir = (d', r)) :
    d' = d ∧ (r = .ok () → plan.createDirAll = none) := by
  simp only [diskOps] at made
  split at made
  · cases made
    refine ⟨rfl, fun ok => ?_⟩
    cases ok
  · rename_i works
    cases made
    exact ⟨rfl, fun _ => works⟩

theorem openWrite_opens {path : String} (opened : (diskOps plan).openWrite d path = (d', .ok h)) :
    plan.openWrite = none ∧ d.Opened path d' h := by
  simp only [diskOps] at opened
  split at opened
  · cases opened
  · rename_i works
    cases opened
    exact ⟨works, d.openWrite_opened path⟩

theorem openWrite_refuses {path reason : String}
    (opened : (diskOps plan).openWrite d path = (d', .error reason)) : d' = d := by
  simp only [diskOps] at opened
  split at opened
  · cases opened
    rfl
  · cases opened

theorem setLen_names (n : Nat) : ((diskOps plan).setLen d h n).names = d.names := by
  simp only [diskOps]
  split <;> rfl

theorem setLen_next (n : Nat) : ((diskOps plan).setLen d h n).next = d.next := by
  simp only [diskOps]
  split <;> rfl

theorem setLen_other {other : Nat} (ne : other ≠ h.inode) (n : Nat) :
    ((diskOps plan).setLen d h n).data other = d.data other := by
  simp only [diskOps]
  split
  · exact Fs.setData_other _ ne _
  · rfl

/-- A file is cut to a length, if that works. -/
theorem setLen_cuts (plan : IoPlan) {n : Nat} (le : n ≤ (d.data h.inode).length) :
    ((diskOps plan).setLen d h n).data h.inode =
      if plan.setLen then (d.data h.inode).take n else d.data h.inode := by
  simp only [diskOps]
  split
  · simp only [Fs.setLen, Fs.setData_same]
    exact resize_of_le _ le
  · rfl

theorem seekStart_inode (d : FileStore) (n : Nat) : ((diskOps plan).seekStart d h n).inode = h.inode := by
  simp only [diskOps]
  split <;> rfl

theorem removeFile_data (path : String) : ((diskOps plan).removeFile d path).data = d.data := by
  simp only [diskOps]
  split <;> rfl

theorem removeFile_next (path : String) : ((diskOps plan).removeFile d path).next = d.next := by
  simp only [diskOps]
  split <;> rfl

theorem removeFile_only {path name : String} {inode : Nat}
    (named : ((diskOps plan).removeFile d path).names name = some inode) :
    d.names name = some inode := by
  simp only [diskOps] at named
  split at named
  · exact Fs.remove_only _ named
  · exact named

theorem writeAll_writes {bytes : Bytes} {ok : Bool}
    (wrote : (diskOps plan).writeAll d h bytes = (d', h', ok)) :
    d' = d.write 0 h (bytes.take (plan.stores bytes)) ∧
      h' = { h with cursor := h.cursor + plan.stores bytes } ∧
      (ok = true ↔ plan.stores bytes = bytes.length) := by
  simp only [diskOps] at wrote
  cases wrote
  exact ⟨rfl, rfl, decide_eq_true_iff⟩

theorem rename_names {old new : String}
    (renamed : (diskOps plan).rename d old new = (d', .ok ())) :
    plan.rename = none ∧ d.rename old new = some d' := by
  simp only [diskOps] at renamed
  split at renamed
  · cases renamed
  · rename_i works
    split at renamed
    · cases renamed
    · rename_i named
      cases renamed
      exact ⟨works, named⟩

theorem rename_refuses {old new reason : String}
    (renamed : (diskOps plan).rename d old new = (d', .error reason)) :
    d' = d ∧ (plan.rename = none → d.names old = none) := by
  simp only [diskOps] at renamed
  split at renamed
  · rename_i refused
    cases renamed
    refine ⟨rfl, fun works => ?_⟩
    rw [refused] at works
    cases works
  · split at renamed
    · rename_i named
      cases renamed
      exact ⟨rfl, fun _ => Fs.rename_eq_none _ named⟩
    · cases renamed

theorem removeFile_idle {path : String} (nothing : d.names path = none) :
    ((diskOps plan).removeFile d path).names = d.names := by
  simp only [diskOps]
  split
  · exact Fs.remove_idle _ nothing
  · rfl

end

/-- A finished transfer, with what the named file held when it was reported. -/
structure Receipt where
  transferId : String
  path : String
  offered : Option Nat
  sha256 : Bytes
  contents : Option Bytes
  deriving DecidableEq, Repr

structure Receiver where
  files : FileTransfers Handle
  fs : FileStore
  emitted : List FileOut
  receipts : List Receipt

/-- The events of one transfer that offer it tell its size. -/
def FileOut.offeredSize (transferId : String) : FileOut → Option Nat
  | .event (.offered id _ size) => if id = transferId then some size else none
  | _ => none

/-- The size a transfer was offered with last. -/
def offeredSize (emitted : List FileOut) (transferId : String) : Option Nat :=
  (emitted.filterMap (FileOut.offeredSize transferId)).getLast?

theorem offeredSize_quiet {emitted out : List FileOut} {transferId : String}
    (quiet : ∀ o, o ∈ out → o.offeredSize transferId = none) :
    offeredSize (emitted ++ out) transferId = offeredSize emitted transferId := by
  have nothing : out.filterMap (FileOut.offeredSize transferId) = [] :=
    List.filterMap_eq_nil_iff.mpr quiet
  rw [offeredSize, List.filterMap_append, nothing, List.append_nil]
  rfl

theorem offeredSize_offered (emitted : List FileOut) (transferId name : String) (size : Nat)
    (env : Envelope) :
    offeredSize (emitted ++ [.event (.offered transferId name size), .out env]) transferId =
      some size := by
  simp [offeredSize, FileOut.offeredSize, List.filterMap_cons]

/-- What a `Completed` with a path reports. -/
def FileOut.received : FileOut → Option (String × String)
  | .event (.completed id (some path)) => some (id, path)
  | _ => none

namespace Receiver

def start (downloadDir : String) (fs : FileStore) : Receiver where
  files := .new downloadDir
  fs := fs
  emitted := []
  receipts := []

def contents (fs : FileStore) (path : String) : Option Bytes := (fs.names path).map fs.data

/-- The receipts for what a `FileComplete` has finished. -/
def receiptsOf (s : Receiver) (fs : FileStore) (out : List FileOut) : Payload → List Receipt
  | .fileComplete c =>
    (out.filterMap FileOut.received).map fun (transferId, path) =>
      { transferId, path, offered := offeredSize s.emitted transferId, sha256 := c.sha256,
        contents := contents fs path }
  | _ => []

theorem receiptsOf_nil (s : Receiver) (fs : FileStore) (p : Payload) : s.receiptsOf fs [] p = [] := by
  cases p <;> rfl

/-- One envelope is handled. -/
def step (crypto : Crypto) (s : Receiver) (l : Payload × IoPlan) : Option Receiver :=
  (s.files.handle crypto (diskOps l.2) s.fs l.1).map fun r =>
    { files := r.1, fs := r.2.1, emitted := s.emitted ++ r.2.2,
      receipts := s.receipts ++ s.receiptsOf r.2.1 r.2.2 l.1 }

/-- The directory may hold anything at first. -/
def machine (crypto : Crypto) : Machine Receiver (Payload × IoPlan) where
  init s := ∃ downloadDir fs, s = start downloadDir fs
  step := step crypto

/-- An empty directory, and envelopes whose calls all work. -/
def emptyStore : FileStore where
  names _ := none
  data _ := []
  next := 0
  used := by
    intro name inode refers
    cases refers

def sampleOffer (id name : String) (size : Nat) : Payload × IoPlan :=
  (.fileOffer { transferId := id, name, size, mime := "" }, .reliable)

def sampleChunk (id : String) (offset : Nat) (data : Bytes) : Payload × IoPlan :=
  (.fileChunk { transferId := id, offset, data }, .reliable)

def sampleComplete (id : String) (sha256 : Bytes) : Payload × IoPlan :=
  (.fileComplete { transferId := id, sha256 }, .reliable)

end Receiver
end ReachMyDevice
