import ReachMyDevice.FileReceiver
import ReachMyDevice.FileSender
import ReachMyDevice.Lib.Slots

/-!
# One side of the file transfers

The manager, which takes envelopes and calls one at a time, and the threads it
has started. All of them write to one channel of events.
-/
namespace ReachMyDevice
open FileSystem

namespace FileTransfers
variable {H : Type}

def transferId (seq : Nat) (name : String) : String := "tx-" ++ Nat.repr seq ++ "-" ++ name

/-- The counter can be read off an id, whatever the name is. -/
theorem transferId_seq {a b : Nat} {name other : String}
    (h : transferId a name = transferId b other) : a = b := by
  have shape : ∀ (n : Nat) (rest : String), (transferId n rest).toList =
      ['t', 'x', '-'] ++ (Nat.toDigits 10 n ++ '-' :: rest.toList) := by
    intro n rest
    simp [transferId, Nat.repr]
  have counter : ∀ (n : Nat) (rest : List Char),
      (Nat.toDigits 10 n ++ '-' :: rest).takeWhile Char.isDigit = Nat.toDigits 10 n := by
    intro n rest
    have digits : ∀ c, c ∈ Nat.toDigits 10 n → c.isDigit = true := fun c member =>
      Nat.isDigit_of_mem_toDigits (by decide) (by decide) member
    rw [List.takeWhile_append_of_pos digits]
    simp
  have lists := congrArg String.toList h
  rw [shape, shape] at lists
  have same := congrArg (List.takeWhile Char.isDigit) (List.append_cancel_left lists)
  rw [counter, counter] at same
  have values := congrArg (Nat.ofDigitChars 10 · 0) same
  simpa using values

/-- The cell and the entry of a file that is sent. -/
def openSend (t : FileTransfers H) (transferId : String) : FileTransfers H :=
  { t with
    shared := t.shared ++ [{ acked := 0, started := false, cancel := false }]
    sends := t.sends.insert transferId t.shared.length }

/-- Drops the transfer as `on_cancel` does, and tells the peer and not the user. -/
def cancel (t : FileTransfers H) (transferId reason : String) : FileTransfers H × List FileOut :=
  ((t.onCancel { transferId, reason }).1, [.out (fileCancel transferId reason)])

end FileTransfers

structure FileNode where
  files : FileTransfers Handle
  fs : FileStore
  seq : Nat
  threads : List SendThread
  events : List FileEvent

inductive FileAct
  | handle (p : Payload) (plan : IoPlan)
  /-- A file of this size is there; the thread may fail to start. -/
  | sendFile (path : String) (size : Nat) (spawned : Bool)
  | cancel (transferId reason : String)
  | thread (i : Nat) (act : SendAct)

def FileOut.event? : FileOut → Option FileEvent
  | .event ev => some ev
  | .out _ => none

def FileOut.envelope? : FileOut → Option Envelope
  | .event _ => none
  | .out env => some env

namespace FileNode
open FileTransfers

def start (downloadDir : String) (fs : FileStore) : FileNode where
  files := .new downloadDir
  fs := fs
  seq := 0
  threads := []
  events := []

/-- The outputs of a step, in order. -/
def emit (n : FileNode) (out : List FileOut) : FileNode × List Envelope :=
  ({ n with events := n.events ++ out.filterMap FileOut.event? }, out.filterMap FileOut.envelope?)

def nextId (n : FileNode) (path : String) : String :=
  transferId (n.seq + 1) ((pathFileName path).getD "file")

def sendFile (n : FileNode) (path : String) (size : Nat) (spawned : Bool) : FileNode × List Envelope :=
  let id := n.nextId path
  let thread : SendThread :=
    { transferId := id, size, cell := n.files.shared.length, phase := .hash }
  { n with
    seq := n.seq + 1
    files := n.files.openSend id
    threads := if spawned then n.threads ++ [thread] else n.threads }.emit
      [.out (fileOffer id ((pathFileName path).getD "file") size (mimeFor path))]

/-- A thread goes on with the cell it shares with the manager. -/
def runThread (n : FileNode) (i : Nat) (act : SendAct) : Option (FileNode × List Envelope) :=
  match n.threads[i]? with
  | none => none
  | some t =>
    match n.files.shared[t.cell]? with
    | none => none
    | some shared =>
      (t.act shared act).map fun r =>
        { n with threads := n.threads.set i { t with phase := r.1 } }.emit r.2

/-- One step, with the envelopes it sends. -/
def step (crypto : Crypto) (n : FileNode) : FileAct → Option (FileNode × List Envelope)
  | .handle p plan =>
    (n.files.handle crypto (diskOps plan) n.fs p).map fun r =>
      { n with files := r.1, fs := r.2.1 }.emit r.2.2
  | .sendFile path size spawned => some (n.sendFile path size spawned)
  | .cancel id reason =>
    some ({ n with files := (n.files.cancel id reason).1 }.emit (n.files.cancel id reason).2)
  | .thread i act => n.runThread i act

theorem handled_of_step {crypto : Crypto} {n n' : FileNode} {p : Payload} {plan : IoPlan}
    {envs : List Envelope} (h : n.step crypto (.handle p plan) = some (n', envs)) :
    ∃ files fs out, n.files.handle crypto (diskOps plan) n.fs p = some (files, fs, out) ∧
      (n', envs) = { n with files, fs }.emit out := by
  obtain ⟨⟨files, fs, out⟩, handled, same⟩ := Option.map_eq_some_iff.mp h
  exact ⟨files, fs, out, handled, same.symm⟩

/-- All that a step of a thread does. -/
theorem runThread_cases {n n' : FileNode} {i : Nat} {act : SendAct} {envs : List Envelope}
    (h : n.runThread i act = some (n', envs)) :
    ∃ t cell phase out, n.threads[i]? = some t ∧ n.files.shared[t.cell]? = some cell ∧
      t.Acts cell act phase out ∧
      (n', envs) = { n with threads := n.threads.set i { t with phase := phase } }.emit out := by
  unfold runThread at h
  split at h
  · cases h
  · rename_i t member
    split at h
    · cases h
    · rename_i cell held
      obtain ⟨r, acted, same⟩ := Option.map_eq_some_iff.mp h
      exact ⟨t, cell, r.1, r.2, member, held, SendThread.act_cases acted, same.symm⟩

section
variable {n : FileNode} {path : String} {size : Nat} {spawned : Bool}

theorem sendFile_events : (n.sendFile path size spawned).1.events = n.events := by
  simp only [sendFile, emit, List.filterMap_cons, FileOut.event?, List.filterMap_nil,
    List.append_nil]

/-- The threads once a file is sent: at most one is new. -/
theorem sendFile_threads {i : Nat} {t : SendThread}
    (member : (n.sendFile path size spawned).1.threads[i]? = some t) :
    n.threads[i]? = some t ∨ i = n.threads.length ∧ t = {
      transferId := n.nextId path, size, cell := n.files.shared.length, phase := .hash } := by
  simp only [sendFile, emit] at member
  split at member
  · exact Slots.getElem?_concat_cases member
  · exact .inl member

end

end FileNode
end ReachMyDevice
