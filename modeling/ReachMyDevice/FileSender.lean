import ReachMyDevice.FileTransfers

/-!
# Sending a file

Each file is sent by a thread of its own. An iteration that only sleeps is no
step: the thread waits until its cell or its cancel flag changes.
-/
namespace ReachMyDevice

namespace FileTransfers

/-- The most bytes that may be on their way without an acknowledgement. -/
def window : Nat := 1024 * 1024

end FileTransfers

/-- The last component of a path, if it is a name. -/
def pathFileName (path : String) : Option String :=
  match ((path.toList.splitOn '/').filter fun c => c ≠ [] ∧ c ≠ ['.']).getLast? with
  | some name => if name = ['.', '.'] then none else some (String.ofList name)
  | none => none

/-- What follows the last dot, unless the name has none or only starts with it. -/
def pathExtension (path : String) : Option String :=
  match pathFileName path with
  | none => none
  | some name =>
    let after := (name.toList.reverse.takeWhile (· ≠ '.')).reverse
    if after.length + 1 < name.toList.length then some (String.ofList after) else none

def mimeFor (path : String) : String :=
  match pathExtension path with
  | some "txt" => "text/plain"
  | some "png" => "image/png"
  | some "jpg" | some "jpeg" => "image/jpeg"
  | some "pdf" => "application/pdf"
  | some "zip" => "application/zip"
  | _ => "application/octet-stream"

/-- `hash_file`'s loop over a file; `read` tells how a call goes at each place, an error or
the most bytes it returns. -/
def hashLoop (read : Nat → Option Nat) (contents : Bytes) : Nat → Nat → Bytes → Option Bytes
  | 0, _, hasher => some hasher
  | fuel + 1, place, hasher =>
    match read place with
    | none => none
    | some most =>
      let bytes := (contents.drop place).take (min FileTransfers.chunkSize (max 1 most))
      if bytes = [] then some hasher
      else hashLoop read contents fuel (place + bytes.length) (hasher ++ bytes)

def hashFile (crypto : Crypto) (read : Nat → Option Nat) (contents : Bytes) : Option Bytes :=
  (hashLoop read contents (contents.length + 1) 0 []).map crypto.sha256

theorem hashLoop_reads {read : Nat → Option Nat} (reads : ∀ place, (read place).isSome = true)
    (contents : Bytes) (fuel place : Nat) (hasher : Bytes) (enough : contents.length < fuel + place) :
    hashLoop read contents fuel place hasher = some (hasher ++ contents.drop place) := by
  induction fuel generalizing place hasher with
  | zero =>
      rw [List.drop_eq_nil_of_le (by omega), List.append_nil]
      rfl
  | succ fuel ih =>
      obtain ⟨most, goes⟩ := Option.isSome_iff_exists.mp (reads place)
      simp only [hashLoop, goes]
      have length : ((contents.drop place).take (min FileTransfers.chunkSize (max 1 most))).length =
          min (min FileTransfers.chunkSize (max 1 most)) (contents.length - place) := by
        rw [List.length_take, List.length_drop]
      have some_ : 0 < min FileTransfers.chunkSize (max 1 most) := by
        simp only [FileTransfers.chunkSize]
        omega
      split
      · rename_i ended
        rw [ended, List.length_nil] at length
        rw [List.drop_eq_nil_of_le (by omega), List.append_nil]
      · rename_i more
        have more := List.length_pos_iff.mpr more
        rw [length] at more
        rw [ih _ _ (by omega), List.append_assoc, ← List.drop_drop,
          List.prefix_iff_eq_append.mp (List.take_prefix _ _)]

/-- A file that can be read has the digest of its contents. -/
theorem hashFile_reads {crypto : Crypto} {read : Nat → Option Nat}
    (reads : ∀ place, (read place).isSome = true) (contents : Bytes) :
    hashFile crypto read contents = some (crypto.sha256 contents) := by
  rw [hashFile, hashLoop_reads reads contents _ _ _ (by omega), List.drop_zero, List.nil_append,
    Option.map_some]

/-- Where a sending thread stands. The file's cursor is always at `next`. -/
inductive SendPhase
  | hash
  | openFile (digest : Bytes)
  | awaitStart (digest : Bytes)
  | loop (digest : Bytes) (next : Nat)
  | read (digest : Bytes) (next : Nat)
  | progress (digest : Bytes) (next : Nat)
  | complete (digest : Bytes)
  | completed
  | stopped
  deriving DecidableEq, Repr

structure SendThread where
  transferId : String
  size : Nat
  cell : Nat
  phase : SendPhase
  deriving DecidableEq, Repr

/-- One step of a thread, with what the file gives. -/
inductive SendAct
  | hash (digest : Option Bytes)
  | openFile (opens : Bool)
  | start (seeks : Bool)
  | check
  | read (got : Option Bytes)
  | report
  | complete
  deriving DecidableEq, Repr

/-- `none`: the thread is elsewhere, or it waits. -/
def SendThread.act (t : SendThread) (shared : SendShared) : SendAct → Option (SendPhase × List FileOut)
  | .hash digest =>
    match t.phase, digest with
    | .hash, none => some (.stopped, [])
    | .hash, some digest => some (.openFile digest, [])
    | _, _ => none
  | .openFile opens =>
    match t.phase with
    | .openFile digest => some (if opens then .awaitStart digest else .stopped, [])
    | _ => none
  | .start seeks =>
    match t.phase with
    | .awaitStart digest =>
      if shared.started then some (if seeks then .loop digest shared.acked else .stopped, [])
      else if shared.cancel then some (.stopped, [])
      else none
    | _ => none
  | .check =>
    match t.phase with
    | .loop digest next =>
      if shared.cancel then some (.stopped, [])
      else if t.size ≤ next then
        if t.size ≤ shared.acked then some (.complete digest, []) else none
      else if FileTransfers.window ≤ next - shared.acked then none
      else some (.read digest next, [])
    | _ => none
  | .read got =>
    match t.phase, got with
    | .read _ _, none | .read _ _, some [] => some (.stopped, [])
    | .read digest next, some bytes =>
      if bytes.length ≤ min (t.size - next) FileTransfers.chunkSize then
        some (.progress digest (next + bytes.length), [.out (fileChunk t.transferId next bytes)])
      else none
    | _, _ => none
  | .report =>
    match t.phase with
    | .progress digest next => some (.loop digest next, [.event (.progress t.transferId next t.size)])
    | .completed => some (.stopped, [.event (.completed t.transferId none)])
    | _ => none
  | .complete =>
    match t.phase with
    | .complete digest => some (.completed, [.out (fileComplete t.transferId digest)])
    | _ => none

/-- All that a thread does in one step. -/
inductive SendThread.Acts (t : SendThread) (shared : SendShared) :
    SendAct → SendPhase → List FileOut → Prop
  | unhashed (at_ : t.phase = .hash) : Acts t shared (.hash none) .stopped []
  | hashed {digest : Bytes} (at_ : t.phase = .hash) :
      Acts t shared (.hash (some digest)) (.openFile digest) []
  | unopened {digest : Bytes} (at_ : t.phase = .openFile digest) :
      Acts t shared (.openFile false) .stopped []
  | opened {digest : Bytes} (at_ : t.phase = .openFile digest) :
      Acts t shared (.openFile true) (.awaitStart digest) []
  | unsought {digest : Bytes} (at_ : t.phase = .awaitStart digest) (started : shared.started = true) :
      Acts t shared (.start false) .stopped []
  | sought {digest : Bytes} (at_ : t.phase = .awaitStart digest) (started : shared.started = true) :
      Acts t shared (.start true) (.loop digest shared.acked) []
  | abandoned {digest : Bytes} {seeks : Bool} (at_ : t.phase = .awaitStart digest)
      (cancel : shared.cancel = true) : Acts t shared (.start seeks) .stopped []
  | stops {digest : Bytes} {next : Nat} (at_ : t.phase = .loop digest next)
      (cancel : shared.cancel = true) : Acts t shared .check .stopped []
  | finishes {digest : Bytes} {next : Nat} (at_ : t.phase = .loop digest next)
      (cancel : shared.cancel = false) (sent : t.size ≤ next) (acked : t.size ≤ shared.acked) :
      Acts t shared .check (.complete digest) []
  | goesOn {digest : Bytes} {next : Nat} (at_ : t.phase = .loop digest next)
      (cancel : shared.cancel = false) (left : next < t.size)
      (fits : next - shared.acked < FileTransfers.window) :
      Acts t shared .check (.read digest next) []
  | unread {digest : Bytes} {next : Nat} {got : Option Bytes} (at_ : t.phase = .read digest next)
      (nothing : got = none ∨ got = some []) : Acts t shared (.read got) .stopped []
  | chunk {digest : Bytes} {next : Nat} {bytes : Bytes} (at_ : t.phase = .read digest next)
      (some_ : bytes ≠ []) (fits : bytes.length ≤ min (t.size - next) FileTransfers.chunkSize) :
      Acts t shared (.read (some bytes)) (.progress digest (next + bytes.length))
        [.out (fileChunk t.transferId next bytes)]
  | progressed {digest : Bytes} {next : Nat} (at_ : t.phase = .progress digest next) :
      Acts t shared .report (.loop digest next) [.event (.progress t.transferId next t.size)]
  | completes {digest : Bytes} (at_ : t.phase = .complete digest) :
      Acts t shared .complete .completed [.out (fileComplete t.transferId digest)]
  | completed (at_ : t.phase = .completed) :
      Acts t shared .report .stopped [.event (.completed t.transferId none)]

theorem SendThread.act_cases {t : SendThread} {shared : SendShared} {act : SendAct}
    {phase : SendPhase} {out : List FileOut} (h : t.act shared act = some (phase, out)) :
    t.Acts shared act phase out := by
  cases act with
  | hash digest =>
      simp only [SendThread.act] at h
      split at h
      · rename_i at_
        cases h
        exact .unhashed at_
      · rename_i at_
        cases h
        exact .hashed at_
      · cases h
  | openFile opens =>
      simp only [SendThread.act] at h
      split at h
      · rename_i at_
        cases opens <;> cases h
        · exact .unopened at_
        · exact .opened at_
      · cases h
  | start seeks =>
      simp only [SendThread.act] at h
      split at h
      · rename_i at_
        split at h
        · rename_i started
          cases seeks <;> cases h
          · exact .unsought at_ started
          · exact .sought at_ started
        · split at h
          · rename_i cancel
            cases h
            exact .abandoned at_ cancel
          · cases h
      · cases h
  | check =>
      simp only [SendThread.act] at h
      split at h
      · rename_i at_
        split at h
        · rename_i cancel
          cases h
          exact .stops at_ cancel
        · rename_i going
          have going := Bool.eq_false_iff.mpr going
          split at h
          · rename_i sent
            split at h
            · rename_i acked
              cases h
              exact .finishes at_ going sent acked
            · cases h
          · rename_i left
            split at h
            · cases h
            · rename_i fits
              cases h
              exact .goesOn at_ going (Nat.lt_of_not_le left) (Nat.lt_of_not_le fits)
      · cases h
  | read got =>
      simp only [SendThread.act] at h
      split at h
      · rename_i at_
        cases h
        exact .unread at_ (.inl rfl)
      · rename_i at_
        cases h
        exact .unread at_ (.inr rfl)
      · rename_i bytes some_ at_
        split at h
        · rename_i fits
          cases h
          refine .chunk at_ ?_ fits
          intro none_
          exact some_ (by rw [none_])
        · cases h
      · cases h
  | report =>
      simp only [SendThread.act] at h
      split at h
      · rename_i at_
        cases h
        exact .progressed at_
      · rename_i at_
        cases h
        exact .completed at_
      · cases h
  | complete =>
      simp only [SendThread.act] at h
      split at h
      · rename_i at_
        cases h
        exact .completes at_
      · cases h

theorem SendThread.Acts.runs {t : SendThread} {shared : SendShared} {act : SendAct}
    {phase : SendPhase} {out : List FileOut} (h : t.Acts shared act phase out) :
    t.phase ≠ .stopped := by
  intro stopped
  cases h <;> simp_all only [reduceCtorEq]

/-- A read that the file allows is no step that blocks. -/
theorem SendThread.act_read {t : SendThread} {digest bytes : Bytes} {next : Nat}
    (shared : SendShared) (at_ : t.phase = .read digest next)
    (fits : bytes.length ≤ min (t.size - next) FileTransfers.chunkSize) :
    t.act shared (.read (some bytes)) ≠ none := by
  cases bytes with
  | nil => simp only [SendThread.act, at_, ne_eq, reduceCtorEq, not_false_eq_true]
  | cons first rest =>
      simp only [SendThread.act, at_, if_pos fits, ne_eq, reduceCtorEq, not_false_eq_true]

example : pathFileName "a/b.tar.gz/" = some "b.tar.gz" ∧ mimeFor "x/.png" = "application/octet-stream" ∧
    mimeFor "x/y.png" = "image/png" := by decide

end ReachMyDevice
