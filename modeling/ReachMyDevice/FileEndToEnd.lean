import ReachMyDevice.FilePair
import ReachMyDevice.FileStream

/-!
# One file, from end to end

A side sends one file to the other. Nothing is cancelled and no call fails, and all
else may happen in any order.
-/
namespace ReachMyDevice
open Machines FileSystem FileTransfers Exchanges

namespace SendPhase

/-- How many bytes are on their way or there, of a file of this size. -/
def sent (size : Nat) : SendPhase → Nat
  | .hash | .openFile _ | .awaitStart _ => 0
  | .loop _ next | .read _ next | .progress _ next => next
  | .complete _ | .completed | .stopped => size

/-- The thread has not begun to send. -/
def Early : SendPhase → Prop
  | .hash | .openFile _ | .awaitStart _ => True
  | _ => False

/-- Where a thread stands while it sends. -/
def next? : SendPhase → Option Nat
  | .loop _ next | .read _ next | .progress _ next => some next
  | _ => none

theorem Early.next? {phase : SendPhase} (h : phase.Early) : phase.next? = none := by
  cases phase <;> first | rfl | cases h

/-- What a phase tells of the digest and the acknowledged bytes. -/
def Keeps (digest : Bytes) (size acked : Nat) : SendPhase → Prop
  | .hash => True
  | .openFile d | .awaitStart d => d = digest
  | .loop d next | .progress d next => d = digest ∧ next ≤ size ∧ next - acked < window + chunkSize
  | .read d next => d = digest ∧ next < size ∧ next - acked < window
  | .complete d => d = digest ∧ size ≤ acked
  | .completed | .stopped => size ≤ acked

theorem Keeps.mono {digest : Bytes} {size acked more : Nat} {phase : SendPhase}
    (h : phase.Keeps digest size acked) (le : acked ≤ more) : phase.Keeps digest size more := by
  cases phase with
  | hash => trivial
  | openFile d => exact h
  | awaitStart d => exact h
  | loop d next => exact ⟨h.1, h.2.1, by have := h.2.2; omega⟩
  | read d next => exact ⟨h.1, h.2.1, by have := h.2.2; omega⟩
  | progress d next => exact ⟨h.1, h.2.1, by have := h.2.2; omega⟩
  | complete d => exact ⟨h.1, Nat.le_trans h.2 le⟩
  | completed => exact Nat.le_trans h le
  | stopped => exact Nat.le_trans h le

/-- The steps that a thread has left, each weighed by the envelopes it causes. -/
def left (size : Nat) : SendPhase → Nat
  | .hash => 6 * size + 8
  | .openFile _ => 6 * size + 7
  | .awaitStart _ => 6 * size + 6
  | .loop _ next => 6 * (size - next) + 5
  | .read _ next => 6 * (size - next) + 4
  | .progress _ next => 6 * (size - next) + 6
  | .complete _ => 4
  | .completed => 1
  | .stopped => 0

end SendPhase

/-- The source can be read, as much at a time as it likes to give. -/
def SendThread.Reads (crypto : Crypto) (src : Bytes) (t : SendThread) : SendAct → Prop
  | .hash digest => ∃ read : Nat → Option Nat,
      (∀ place, (read place).isSome = true) ∧ digest = hashFile crypto read src
  | .openFile opens => opens = true
  | .start seeks => seeks = true
  | .read got => ∀ digest next, t.phase = .read digest next → ∃ most,
      got = some ((src.drop next).take (min (min (t.size - next) chunkSize) (max 1 most)))
  | .check | .report | .complete => True

/-- What is sent where, and what both sides start with. -/
structure Transfer where
  crypto : Crypto
  path : String
  src : Bytes
  dirs : Side → String
  stores : Side → FileStore

namespace Transfer
variable (x : Transfer)

def name : String := (pathFileName x.path).getD "file"

def id : String := transferId 1 x.name

def offer : FileOffer :=
  { transferId := x.id, name := x.name, size := x.src.length, mime := mimeFor x.path }

def receiver : FileTransfers Handle := .new (x.dirs .b)

/-- The `.part` that is there at first. -/
def part : Option Bytes := Receiver.contents (x.stores .b) (x.receiver.partPath x.offer)

def resume : Nat := min (x.part.getD []).length x.src.length

/-- The kept `.part`, and the rest of the source. -/
def whole : Bytes := (x.part.getD []).take x.src.length ++ x.src.drop x.resume

def digest : Bytes := x.crypto.sha256 x.src

/-- Nothing else of the same length has the digest of the source. -/
def Resists : Prop := ∀ bytes : Bytes, bytes.length = x.src.length →
  x.crypto.sha256 bytes = x.digest → bytes = x.src

def machine : Machine FilePair PairAct where
  init s := s = .start x.dirs x.stores
  step := FilePair.step x.crypto

/-- The file is sent once, nothing is cancelled and no call fails. -/
def Single (s : FilePair) : PairAct → Prop
  | .sendFile side path size spawned =>
    side = .a ∧ path = x.path ∧ size = x.src.length ∧ spawned = true ∧ (s.node .a).seq = 0
  | .cancel .. => False
  | .thread side i act => ∀ t, (s.node side).threads[i]? = some t → t.Reads x.crypto x.src act
  | .deliver _ plan => plan.Works

/-- The sending side, with its thread and the acknowledgements that are on their way to it. -/
structure Sends (n : FileNode) (inbox : List Envelope) (t : SendThread) (cell : SendShared)
    (acks : List Nat) : Prop where
  seq : n.seq ≠ 0
  threads : n.threads = [t]
  shared : n.files.shared = [cell]
  sends : n.files.sends.lookup x.id = some 0
  own : t.transferId = x.id
  size : t.size = x.src.length
  place : t.cell = 0
  going : cell.cancel = false
  inbox : inbox = acks.map (fileAck x.id)
  rising : (cell.acked :: acks).Pairwise (· ≤ ·)
  keeps : t.phase.Keeps x.digest x.src.length cell.acked
  ended : t.phase = .stopped → .completed x.id none ∈ n.events

/-- The receiving side once it has taken the offer on. -/
structure TakesIn (n : FileNode) (st : RecvState Handle) (acked : Nat) (acks : List Nat) : Prop where
  idle : n.threads = []
  known : n.files.recvs.lookup x.id = some st
  receives : Receives n.fs st
  size : st.size = x.src.length
  since : x.resume ≤ st.written
  hasher : st.hasher = x.whole.take st.written
  latest : (acked :: acks).getLast? = some st.lastAck
  below : ∀ k, k ∈ acked :: acks → k ≤ st.lastAck
  quiet : ∀ id path, .completed id (some path) ∉ n.events

/-- How far the receiving side is, and what is on its way to it. -/
inductive Flows : SendPhase → SendShared → List Nat → FileNode → List Envelope → Prop
  | offered {phase : SendPhase} {cell : SendShared} (early : phase.Early)
      (waits : cell.started = false) (nothing : cell.acked = 0) :
      Flows phase cell [] (.start (x.dirs .b) (x.stores .b)) [envelope (.fileOffer x.offer)]
  | answered {phase : SendPhase} {cell : SendShared} {acks : List Nat} {n : FileNode}
      {st : RecvState Handle} (early : phase.Early) (takes : x.TakesIn n st cell.acked acks)
      (written : st.written = x.resume)
      (answer : cell.started = false ∧ acks = [x.resume] ∨
        cell.started = true ∧ cell.acked = x.resume ∧ acks = []) : Flows phase cell acks n []
  | streaming {phase : SendPhase} {cell : SendShared} {acks : List Nat} {n : FileNode}
      {st : RecvState Handle} {next : Nat} {envs : List Envelope} (at_ : phase.next? = some next)
      (started : cell.started = true) (takes : x.TakesIn n st cell.acked acks)
      (carries : Carries x.id x.src st.written envs next) : Flows phase cell acks n envs
  | settled {digest : Bytes} {cell : SendShared} {acks : List Nat} {n : FileNode}
      {st : RecvState Handle} (started : cell.started = true)
      (takes : x.TakesIn n st cell.acked acks) : Flows (.complete digest) cell acks n []
  | announced {phase : SendPhase} {cell : SendShared} {acks : List Nat} {n : FileNode}
      {st : RecvState Handle} (ended : phase = .completed ∨ phase = .stopped)
      (started : cell.started = true) (takes : x.TakesIn n st cell.acked acks) :
      Flows phase cell acks n [fileComplete x.id x.digest]
  | decided {phase : SendPhase} {cell : SendShared} {acks : List Nat} {n : FileNode}
      (idle : n.threads = []) (ended : phase = .completed ∨ phase = .stopped)
      (intact : x.crypto.sha256 x.whole = x.digest →
        ∃ path, .completed x.id (some path) ∈ n.events)
      (named : ∀ id path, .completed id (some path) ∈ n.events →
        Receiver.contents n.fs path = some x.whole ∧ x.crypto.sha256 x.whole = x.digest) :
      Flows phase cell acks n []

/-- Every state of a run. -/
inductive Holds (s : FilePair) : Prop
  | idle (start : s = .start x.dirs x.stores)
  | sending (t : SendThread) (cell : SendShared) (acks : List Nat)
      (sends : x.Sends (s.node .a) (s.inbox .a) t cell acks)
      (flows : x.Flows t.phase cell acks (s.node .b) (s.inbox .b))

def measure (s : FilePair) : Nat :=
  match (s.node .a).threads with
  | [] => 6 * x.src.length + 11
  | t :: _ => t.phase.left x.src.length + 2 * (s.inbox .b).length + (s.inbox .a).length

section
variable {x}

theorem resume_le : x.resume ≤ x.src.length := Nat.min_le_right ..

theorem length_kept : ((x.part.getD []).take x.src.length).length = x.resume := by
  rw [List.length_take, Nat.min_comm]
  rfl

theorem length_whole : x.whole.length = x.src.length := by
  have le := x.resume_le
  rw [whole, List.length_append, length_kept, List.length_drop]
  omega

theorem whole_resume : x.whole.take x.resume = (x.part.getD []).take x.src.length := by
  rw [whole, List.take_left' length_kept]

/-- From where the transfer goes on, it is the source. -/
theorem drop_whole {n : Nat} (since : x.resume ≤ n) : x.whole.drop n = x.src.drop n := by
  rw [whole, List.drop_append, length_kept, List.drop_eq_nil_of_le (by rw [length_kept]; exact since),
    List.nil_append, List.drop_drop, Nat.add_sub_cancel' since]

/-- A `.part` that is not there, or that the source starts with, does no harm. -/
theorem whole_src (fits : ∀ bytes, x.part = some bytes → bytes <+: x.src) : x.whole = x.src := by
  have kept : x.part.getD [] <+: x.src := by
    cases there : x.part with
    | none => exact List.nil_prefix
    | some bytes => exact fits bytes there
  rw [whole, resume, Nat.min_eq_left kept.length_le, List.take_of_length_le kept.length_le]
  exact List.prefix_iff_eq_append.mp kept

/-- The transfer's bytes grow by those of the next chunk. -/
theorem take_whole {n : Nat} {bytes : Bytes} (since : x.resume ≤ n)
    (piece : bytes <+: x.src.drop n) :
    x.whole.take n ++ bytes = x.whole.take (n + bytes.length) := by
  rw [← drop_whole since] at piece
  rw [List.take_add, ← List.prefix_iff_eq_take.mp piece]

section
variable {t : SendThread} {cell : SendShared} {acks : List Nat} {n m : FileNode}
  {inbox envs : List Envelope} {act : SendAct} {phase : SendPhase} {out : List FileOut}

theorem Flows.idle (h : x.Flows phase cell acks m envs) : m.threads = [] := by
  cases h with
  | offered early waits nothing => rfl
  | answered early takes written answer => exact takes.idle
  | streaming at_ started takes carries => exact takes.idle
  | settled started takes => exact takes.idle
  | announced ended started takes => exact takes.idle
  | decided idle ended intact named => exact idle

/-- Nothing changes for the receiving side before the thread begins to send. -/
theorem Flows.early (h : x.Flows phase cell acks m envs) (before : phase.Early)
    {after : SendPhase} (still : after.Early) : x.Flows after cell acks m envs := by
  cases h with
  | offered early waits nothing => exact .offered still waits nothing
  | answered early takes written answer => exact .answered still takes written answer
  | streaming at_ started takes carries =>
      rw [before.next?] at at_
      cases at_
  | settled started takes => cases before
  | announced ended started takes => obtain rfl | rfl := ended <;> cases before
  | decided idle ended intact named => obtain rfl | rfl := ended <;> cases before

/-- What is on its way while the thread sends. -/
theorem Flows.sending (h : x.Flows phase cell acks m envs) {next : Nat}
    (sends : phase.next? = some next) :
    cell.started = true ∧ ∃ st, x.TakesIn m st cell.acked acks ∧
      Carries x.id x.src st.written envs next := by
  cases h with
  | offered early waits nothing =>
      rw [early.next?] at sends
      cases sends
  | answered early takes written answer =>
      rw [early.next?] at sends
      cases sends
  | streaming at_ started takes carries =>
      rw [at_, Option.some.injEq] at sends
      subst sends
      exact ⟨started, _, takes, carries⟩
  | settled started takes => cases sends
  | announced ended started takes => obtain rfl | rfl := ended <;> cases sends
  | decided idle ended intact named => obtain rfl | rfl := ended <;> cases sends

/-- A thread whose wait is over sends from where the receiver is. -/
theorem Flows.begin {digest : Bytes} (h : x.Flows (.awaitStart digest) cell acks m envs)
    (started : cell.started = true) :
    cell.acked = x.resume ∧ x.Flows (.loop digest cell.acked) cell acks m envs := by
  cases h with
  | offered early waits nothing =>
      rw [waits] at started
      cases started
  | answered early takes written answer =>
      obtain ⟨waits, -⟩ | ⟨-, acked, -⟩ := answer
      · rw [waits] at started
        cases started
      · refine ⟨acked, .streaming rfl started takes ?_⟩
        rw [written, acked]
        exact .nil _
  | streaming at_ started takes carries => cases at_
  | announced ended started takes => cases ended <;> contradiction
  | decided idle ended intact named => cases ended <;> contradiction

theorem Flows.announces {digest : Bytes} (h : x.Flows (.complete digest) cell acks m envs) :
    x.Flows .completed cell acks m (envs ++ [fileComplete x.id x.digest]) := by
  cases h with
  | offered early waits nothing => cases early
  | answered early takes written answer => cases early
  | streaming at_ started takes carries => cases at_
  | settled started takes => exact .announced (.inl rfl) started takes
  | announced ended started takes => cases ended <;> contradiction
  | decided idle ended intact named => cases ended <;> contradiction

theorem Flows.stops (h : x.Flows .completed cell acks m envs) :
    x.Flows .stopped cell acks m envs := by
  cases h with
  | offered early waits nothing => cases early
  | answered early takes written answer => cases early
  | streaming at_ started takes carries => cases at_
  | announced ended started takes => exact .announced (.inr rfl) started takes
  | decided idle ended intact named => exact .decided idle (.inr rfl) intact named

/-- A thread that is waiting for nothing more has its answer. -/
theorem Flows.answered_started (h : x.Flows phase cell [] m []) (before : phase.Early) :
    cell.started = true := by
  cases h with
  | answered early takes written answer =>
      obtain ⟨-, same⟩ | ⟨started, -⟩ := answer
      · cases same
      · exact started
  | streaming at_ started takes carries => exact started
  | settled started takes => exact started
  | decided idle ended intact named => obtain rfl | rfl := ended <;> cases before

/-- A thread that reads what is there goes through its phases. What it sends goes on from what
is on its way. -/
theorem Sends.goes (h : x.Sends n inbox t cell acks) (flows : x.Flows t.phase cell acks m envs)
    (reads : t.Reads x.crypto x.src act) (acts : t.Acts cell act phase out) :
    phase.Keeps x.digest x.src.length cell.acked ∧
      x.Flows phase cell acks m (envs ++ out.filterMap FileOut.envelope?) ∧
      phase.left x.src.length + 2 * (out.filterMap FileOut.envelope?).length <
        t.phase.left x.src.length ∧
      (phase = .stopped → .completed x.id none ∈ out.filterMap FileOut.event?) := by
  have keeps := h.keeps
  have size := h.size
  cases acts with
  | unhashed at_ =>
      obtain ⟨read, works, same⟩ := reads
      rw [hashFile_reads works] at same
      cases same
  | hashed at_ =>
      obtain ⟨read, works, same⟩ := reads
      rw [hashFile_reads works, Option.some.injEq] at same
      rw [at_] at flows ⊢
      rw [List.filterMap_nil, List.append_nil]
      exact ⟨same, flows.early trivial trivial, Nat.lt_succ_self _, fun stopped => by cases stopped⟩
  | unopened at_ => cases reads
  | opened at_ =>
      rw [at_] at keeps flows ⊢
      rw [List.filterMap_nil, List.append_nil]
      exact ⟨keeps, flows.early trivial trivial, Nat.lt_succ_self _, fun stopped => by cases stopped⟩
  | unsought at_ started => cases reads
  | sought at_ started =>
      rw [at_] at keeps flows ⊢
      obtain ⟨acked, flows⟩ := flows.begin started
      have le := x.resume_le
      rw [List.filterMap_nil, List.append_nil]
      refine ⟨⟨keeps, acked ▸ le, ?_⟩, flows, ?_, fun stopped => by cases stopped⟩
      · rw [Nat.sub_self]
        decide
      · simp only [SendPhase.left, List.length_nil]
        omega
  | abandoned at_ cancel =>
      rw [h.going] at cancel
      cases cancel
  | stops at_ cancel =>
      rw [h.going] at cancel
      cases cancel
  | finishes at_ cancel sent acked =>
      rw [at_] at keeps flows ⊢
      obtain ⟨started, st, takes, carries⟩ := flows.sending rfl
      have below := takes.below _ (List.mem_cons_self ..)
      have lastAck := takes.receives.lastAck
      have nothing := carries.nil_of_le (by have := keeps.2.1; omega)
      rw [List.filterMap_nil, List.append_nil, nothing]
      refine ⟨⟨keeps.1, size ▸ acked⟩, .settled started takes, ?_, fun stopped => by cases stopped⟩
      simp only [SendPhase.left, List.length_nil]
      omega
  | goesOn at_ cancel left fits =>
      rw [at_] at keeps flows ⊢
      obtain ⟨started, st, takes, carries⟩ := flows.sending rfl
      rw [List.filterMap_nil, List.append_nil]
      exact ⟨⟨keeps.1, size ▸ left, fits⟩, .streaming rfl started takes carries,
        Nat.lt_succ_self _, fun stopped => by cases stopped⟩
  | @unread digest next got at_ nothing =>
      rw [at_] at keeps
      obtain ⟨most, same⟩ := reads digest next at_
      obtain rfl | rfl := nothing
      · cases same
      · have nothing := congrArg List.length (Option.some.inj same)
        simp only [List.length_nil, List.length_take, List.length_drop, chunkSize] at nothing
        have := keeps.2.1
        omega
  | @chunk digest next bytes at_ some_ fits =>
      obtain ⟨most, read⟩ := reads _ _ at_
      have piece : bytes <+: x.src.drop next := by
        rw [Option.some.injEq] at read
        rw [read]
        exact List.take_prefix ..
      rw [at_] at keeps flows ⊢
      obtain ⟨same, left, window⟩ := keeps
      obtain ⟨started, st, takes, carries⟩ := flows.sending rfl
      have more := List.length_pos_iff.mpr some_
      rw [size] at fits
      rw [h.own]
      refine ⟨⟨same, by omega, by omega⟩, .streaming rfl started takes (carries.concat some_ piece),
        ?_, fun stopped => by cases stopped⟩
      simp only [SendPhase.left, List.filterMap_cons, FileOut.envelope?, List.filterMap_nil,
        List.length_singleton]
      omega
  | progressed at_ =>
      rw [at_] at keeps flows ⊢
      obtain ⟨started, st, takes, carries⟩ := flows.sending rfl
      rw [List.filterMap_cons_none rfl, List.filterMap_nil, List.append_nil]
      exact ⟨keeps, .streaming rfl started takes carries, Nat.lt_succ_self _,
        fun stopped => by cases stopped⟩
  | completes at_ =>
      rw [at_] at keeps flows ⊢
      refine ⟨keeps.2, ?_, ?_, fun stopped => by cases stopped⟩
      · rw [h.own, keeps.1]
        exact flows.announces
      · simp only [SendPhase.left, List.filterMap_cons, FileOut.envelope?, List.filterMap_nil,
          List.length_singleton]
        omega
  | completed at_ =>
      rw [at_] at keeps flows ⊢
      rw [List.filterMap_cons_none rfl, List.filterMap_nil, List.append_nil]
      refine ⟨keeps, flows.stops, Nat.lt_succ_self _, fun _ => ?_⟩
      rw [h.own]
      exact List.mem_singleton_self _

theorem Sends.moves (h : x.Sends n inbox t cell acks)
    (keeps : phase.Keeps x.digest x.src.length cell.acked)
    (ended : phase = .stopped → .completed x.id none ∈ out.filterMap FileOut.event?) :
    x.Sends ({ n with threads := [{ t with phase := phase }] }.emit out).1 inbox
      { t with phase := phase } cell acks :=
  ⟨h.seq, rfl, h.shared, h.sends, h.own, h.size, h.place, h.going, h.inbox, h.rising, keeps,
    fun stopped => List.mem_append_right _ (ended stopped)⟩

/-- With no acknowledgement on its way, what is not acknowledged is less than the window, and
nothing of a file that has come whole. -/
theorem TakesIn.paid {st : RecvState Handle} {acked : Nat} (h : x.TakesIn m st acked []) :
    (x.src.length ≤ st.written → x.src.length ≤ acked) ∧ ¬ window ≤ st.written - acked := by
  have latest : acked = st.lastAck := Option.some.inj h.latest
  have within := h.receives.within
  have owed := h.receives.owed
  have full := h.receives.full
  rw [h.size] at within full
  constructor
  · intro all
    have := full (Nat.le_antisymm within all)
    omega
  · simp only [window, ackEvery] at owed ⊢
    omega

/-- The oldest acknowledgement is taken. -/
theorem TakesIn.acked {st : RecvState Handle} {acked k : Nat} {ks : List Nat}
    (h : x.TakesIn m st acked (k :: ks)) : x.TakesIn m st k ks := by
  refine ⟨h.idle, h.known, h.receives, h.size, h.since, h.hasher, ?_, fun k' member => ?_, h.quiet⟩
  · rw [← h.latest, List.getLast?_cons_cons]
  · exact h.below k' (List.mem_cons_of_mem _ member)

theorem Flows.acked {k : Nat} {ks : List Nat} (h : x.Flows phase cell (k :: ks) m envs) :
    x.Flows phase { cell with acked := k, started := true } ks m envs := by
  cases h with
  | answered early takes written answer =>
      refine .answered early takes.acked written (.inr ⟨rfl, ?_⟩)
      obtain ⟨-, same⟩ | ⟨-, -, same⟩ := answer
      · cases same
        exact ⟨rfl, rfl⟩
      · cases same
  | streaming at_ started takes carries => exact .streaming at_ rfl takes.acked carries
  | settled started takes => exact .settled rfl takes.acked
  | announced ended started takes => exact .announced ended rfl takes.acked
  | decided idle ended intact named => exact .decided idle ended intact named

/-- The sending side takes an acknowledgement. -/
theorem Sends.acked {k : Nat} {ks : List Nat} (h : x.Sends n inbox t cell (k :: ks)) :
    x.Sends { n with files := n.files.onAck { transferId := x.id, offset := k } } inbox.tail t
      { cell with acked := k, started := true } ks := by
  have rising := List.pairwise_cons.mp h.rising
  refine ⟨h.seq, h.threads, ?_, ?_, h.own, h.size, h.place, h.going, ?_, rising.2, ?_, h.ended⟩
  · simp only [onAck, h.sends, h.shared]
    rfl
  · simp only [onAck_sends]
    exact h.sends
  · rw [h.inbox]
    rfl
  · exact h.keeps.mono (rising.1 k (List.mem_cons_self ..))

/-- The receiving side handles all that comes. -/
theorem Flows.handled {env : Envelope} {rest : List Envelope}
    (h : x.Flows phase cell acks m (env :: rest)) :
    ∃ p, env.payload = some p ∧ ∀ plan,
      m.files.handle x.crypto (diskOps plan) m.fs p ≠ none := by
  cases h with
  | offered early waits nothing => exact ⟨_, rfl, fun plan => Option.some_ne_none _⟩
  | streaming at_ started takes carries =>
      cases carries with
      | cons some_ piece more => exact ⟨_, rfl, fun plan => Option.some_ne_none _⟩
  | announced ended started takes => exact ⟨_, rfl, fun plan => Option.some_ne_none _⟩

/-- The report of a chunk is no `Completed`. -/
theorem TakesIn.quiet_progress {st : RecvState Handle} {acked : Nat} {transferId : String}
    {transferred total : Nat} (h : x.TakesIn m st acked acks) (id path : String) :
    .completed id (some path) ∉ m.events ++ [.progress transferId transferred total] := by
  intro member
  obtain old | own := List.mem_append.mp member
  · exact h.quiet id path old
  · cases List.mem_singleton.mp own

/-- The receiving side takes the offer on, and acknowledges what it has kept. -/
theorem takesIn_offer {plan : IoPlan} {answers : List Envelope} (works : plan.Works)
    (stepped : (FileNode.start (x.dirs .b) (x.stores .b)).step x.crypto
      (.handle (.fileOffer x.offer) plan) = some (m, answers)) :
    answers = [fileAck x.id x.resume] ∧
      ∃ st, x.TakesIn m st 0 [x.resume] ∧ st.written = x.resume := by
  obtain ⟨files, fs, out, handled, same⟩ := FileNode.handled_of_step stepped
  cases same
  obtain ⟨st, rfl, receives, final, size, lastAck, hasher, written, rfl⟩ :=
    handles_offer works rfl handled
  have resumes : st.written = x.resume := written
  refine ⟨congrArg (fun n => [fileAck x.id n]) resumes, st,
    ⟨rfl, AList.lookup_insert .., receives, size, ?_, ?_, ?_, ?_, ?_⟩, resumes⟩
  · rw [resumes]
  · rw [resumes, whole_resume]
    exact hasher
  · rw [lastAck, resumes]
    rfl
  · rw [lastAck, resumes]
    intro k member
    simp only [List.mem_cons, List.not_mem_nil, or_false] at member
    omega
  · intro id path member
    simp [FileNode.start, FileOut.event?] at member

/-- The receiving side takes the chunk that comes next, and acknowledges it at most once. -/
theorem TakesIn.chunk {st : RecvState Handle} {acked : Nat} {bytes : Bytes} {plan : IoPlan}
    {m' : FileNode} {answers : List Envelope} (h : x.TakesIn m st acked acks)
    (rising : (acked :: acks).Pairwise (· ≤ ·)) (some_ : bytes ≠ [])
    (piece : bytes <+: x.src.drop st.written) (works : plan.Works)
    (stepped : m.step x.crypto (.handle (.fileChunk
      { transferId := x.id, offset := st.written, data := bytes }) plan) = some (m', answers)) :
    ∃ more st', answers = more.map (fileAck x.id) ∧ more.length ≤ 1 ∧
      (acked :: (acks ++ more)).Pairwise (· ≤ ·) ∧ x.TakesIn m' st' acked (acks ++ more) ∧
      st'.written = st.written + bytes.length := by
  obtain ⟨files, fs, out, handled, same⟩ := FileNode.handled_of_step stepped
  cases same
  have more := List.length_pos_iff.mpr some_
  have fits := piece.length_le
  rw [List.length_drop] at fits
  obtain ⟨st', rfl, receives, -, size, written, hasher, answer⟩ :=
    handles_chunk works h.known h.receives (by rw [h.size]; omega) handled
  have since := h.since
  have lastAck := h.receives.lastAck
  have whole : st'.hasher = x.whole.take st'.written := by
    rw [hasher, written, h.hasher, take_whole since piece]
  obtain ⟨same, rfl⟩ | ⟨latest, rfl⟩ := answer
  · refine ⟨[], st', rfl, Nat.zero_le _, by rw [List.append_nil]; exact rising, ?_, written⟩
    rw [List.append_nil]
    refine ⟨h.idle, AList.lookup_insert .., receives, size.trans h.size, by omega, whole, ?_, ?_,
      h.quiet_progress⟩
    · rw [same]
      exact h.latest
    · rw [same]
      exact h.below
  · have below : ∀ k, k ∈ acked :: acks → k ≤ st'.written := by
      intro k member
      have := h.below k member
      omega
    refine ⟨[st'.written], st', rfl, Nat.le_refl _, ?_, ?_, written⟩
    · rw [← List.cons_append, List.pairwise_append]
      refine ⟨rising, List.pairwise_singleton .., fun k member k' own => ?_⟩
      rw [List.mem_singleton.mp own]
      exact below k member
    · refine ⟨h.idle, AList.lookup_insert .., receives, size.trans h.size, by omega, whole, ?_, ?_,
        h.quiet_progress⟩
      · rw [latest, ← List.cons_append, List.getLast?_concat]
      · rw [latest, ← List.cons_append]
        exact List.forall_mem_append.mpr ⟨below, List.forall_mem_singleton.mpr (Nat.le_refl _)⟩

/-- The receiving side ends a transfer of which it has all, and answers nothing. -/
theorem TakesIn.complete {st : RecvState Handle} {acked : Nat} {plan : IoPlan} {m' : FileNode}
    {answers : List Envelope} (h : x.TakesIn m st acked acks) (all : x.src.length ≤ acked)
    (works : plan.Works)
    (stepped : m.step x.crypto (.handle (.fileComplete
      { transferId := x.id, sha256 := x.digest }) plan) = some (m', answers)) :
    answers = [] ∧ m'.threads = [] ∧
      (x.crypto.sha256 x.whole = x.digest → ∃ path, .completed x.id (some path) ∈ m'.events) ∧
      ∀ id path, .completed id (some path) ∈ m'.events →
        Receiver.contents m'.fs path = some x.whole ∧ x.crypto.sha256 x.whole = x.digest := by
  obtain ⟨files, fs, out, handled, same⟩ := FileNode.handled_of_step stepped
  cases same
  have below := h.below _ (List.mem_cons_self ..)
  have lastAck := h.receives.lastAck
  have full : st.written = st.size :=
    Nat.le_antisymm h.receives.within (by rw [h.size]; omega)
  have whole := h.hasher
  rw [full, h.size, ← length_whole, List.take_length] at whole
  obtain ⟨intact, rfl, there⟩ | ⟨corrupt, reason, rfl⟩ :=
    handles_complete works h.known h.receives full handled
  · rw [whole] at intact there
    refine ⟨rfl, h.idle, fun _ => ⟨_, List.mem_append_right _ (List.mem_singleton_self _)⟩,
      fun id path member => ?_⟩
    obtain old | own := List.mem_append.mp member
    · exact absurd old (h.quiet id path)
    · cases List.mem_singleton.mp own
      exact ⟨there, intact⟩
  · rw [whole] at corrupt
    refine ⟨rfl, h.idle, fun intact => absurd intact corrupt, fun id path member => ?_⟩
    obtain old | own := List.mem_append.mp member
    · exact absurd old (h.quiet id path)
    · cases List.mem_singleton.mp own

/-- The receiving side answers with at most one acknowledgement, which is its latest. -/
theorem Flows.delivered {env : Envelope} {rest : List Envelope} {p : Payload} {plan : IoPlan}
    {m' : FileNode} {answers : List Envelope} (h : x.Flows phase cell acks m (env :: rest))
    (keeps : phase.Keeps x.digest x.src.length cell.acked)
    (rising : (cell.acked :: acks).Pairwise (· ≤ ·)) (brings : env.payload = some p)
    (works : plan.Works) (stepped : m.step x.crypto (.handle p plan) = some (m', answers)) :
    ∃ more, answers = more.map (fileAck x.id) ∧ more.length ≤ 1 ∧
      (cell.acked :: (acks ++ more)).Pairwise (· ≤ ·) ∧
      x.Flows phase cell (acks ++ more) m' rest := by
  cases h with
  | offered early waits nothing =>
      cases brings
      obtain ⟨rfl, st, takes, written⟩ := takesIn_offer works stepped
      rw [← nothing] at takes
      refine ⟨[x.resume], rfl, Nat.le_refl _, ?_, .answered early takes written (.inl ⟨waits, rfl⟩)⟩
      rw [nothing]
      exact List.pairwise_pair.mpr (Nat.zero_le _)
  | @streaming _ _ _ _ st next _ at_ started takes carries =>
      cases carries with
      | cons some_ piece carries =>
          cases brings
          obtain ⟨more, st', same, few, rises, took, written⟩ :=
            takes.chunk rising some_ piece works stepped
          rw [← written] at carries
          exact ⟨more, same, few, rises, .streaming at_ started took carries⟩
  | announced ended started takes =>
      cases brings
      have all : x.src.length ≤ cell.acked := by
        obtain rfl | rfl := ended <;> exact keeps
      obtain ⟨rfl, idle, intact, named⟩ := takes.complete all works stepped
      refine ⟨[], rfl, Nat.zero_le _, by rw [List.append_nil]; exact rising, ?_⟩
      rw [List.append_nil]
      exact .decided idle ended intact named

end

section
variable {s s' : FilePair} {l : PairAct}

theorem measure_sending {t : SendThread} (threads : (s.node .a).threads = [t]) :
    x.measure s =
      t.phase.left x.src.length + 2 * (s.inbox .b).length + (s.inbox .a).length := by
  rw [measure, threads]

/-- The first step of a run. -/
theorem holds_first (ok : x.Single (.start x.dirs x.stores) l)
    (stepped : x.machine.step (.start x.dirs x.stores) l = some s') :
    x.Holds s' ∧ x.measure s' < x.measure (.start x.dirs x.stores) := by
  cases l with
  | sendFile side path size spawned =>
      obtain ⟨rfl, rfl, rfl, rfl, -⟩ := ok
      have ran : FilePair.run x.crypto _ .a (.sendFile ..) = some s' := stepped
      obtain ⟨n, envs, sent, own, other, back, there⟩ := FilePair.run_cases ran
      cases sent
      let t : SendThread :=
        { transferId := x.id, size := x.src.length, cell := 0, phase := .hash }
      have sends : x.Sends (s'.node .a) (s'.inbox .a) t
          { acked := 0, started := false, cancel := false } [] := by
        rw [own, back]
        refine ⟨Nat.succ_ne_zero _, rfl, rfl, ?_, rfl, rfl, rfl, rfl, rfl, List.pairwise_singleton ..,
          trivial, fun stopped => by cases stopped⟩
        exact AList.lookup_insert ..
      refine ⟨.sending t _ [] sends ?_, ?_⟩
      · have start : s'.node .b = .start (x.dirs .b) (x.stores .b) := other
        have offer : s'.inbox .b = [envelope (.fileOffer x.offer)] := there
        rw [start, offer]
        exact .offered trivial rfl rfl
      · have offer : s'.inbox .b = [envelope (.fileOffer x.offer)] := there
        rw [measure_sending sends.threads, sends.inbox, offer]
        simp only [measure, FilePair.start, FileNode.start, t, SendPhase.left, List.length_cons,
          List.length_nil, List.map_nil]
        omega
  | cancel side id reason => exact ok.elim
  | thread side i act =>
      have ran : FilePair.run x.crypto (.start x.dirs x.stores) side (.thread i act) = some s' :=
        stepped
      obtain ⟨n, envs, sent, -⟩ := FilePair.run_cases ran
      cases sent
  | deliver side plan => cases stepped

/-- The sending side's thread moves. -/
theorem Holds.ran {t : SendThread} {cell : SendShared} {acks : List Nat} {side : Side} {i : Nat}
    {act : SendAct} (sends : x.Sends (s.node .a) (s.inbox .a) t cell acks)
    (flows : x.Flows t.phase cell acks (s.node .b) (s.inbox .b))
    (ok : x.Single s (.thread side i act))
    (ran : FilePair.run x.crypto s side (.thread i act) = some s') :
    x.Holds s' ∧ x.measure s' < x.measure s := by
  rw [measure_sending sends.threads]
  obtain ⟨n, envs, acted, own, other, back, there⟩ := FilePair.run_cases ran
  obtain ⟨t', cell', phase, out, member, held, acts, same⟩ := FileNode.runThread_cases acted
  cases side with
  | b =>
      rw [flows.idle] at member
      cases member
  | a =>
      rw [sends.threads] at member same
      obtain ⟨rfl, rfl⟩ : i = 0 ∧ t' = t := by
        cases i with
        | zero => exact ⟨rfl, (Option.some.inj member).symm⟩
        | succ i => cases member
      rw [sends.shared, sends.place] at held
      cases held
      cases same
      have reads := ok t' (by rw [sends.threads]; rfl)
      obtain ⟨keeps, flows, less, ended⟩ := sends.goes flows reads acts
      have after : x.Sends (s'.node .a) (s'.inbox .a) { t' with phase := phase } cell acks := by
        rw [own, back]
        exact sends.moves keeps ended
      simp only [Side.other] at other there
      refine ⟨.sending _ _ _ after ?_, ?_⟩
      · rw [other, there]
        exact flows
      · rw [measure_sending after.threads, back, there, List.length_append]
        simp only
        omega

/-- What is first on its way arrives. -/
theorem Holds.arrived {t : SendThread} {cell : SendShared} {acks : List Nat} {side : Side}
    {plan : IoPlan} (sends : x.Sends (s.node .a) (s.inbox .a) t cell acks)
    (flows : x.Flows t.phase cell acks (s.node .b) (s.inbox .b)) (works : plan.Works)
    (stepped : FilePair.step x.crypto s (.deliver side plan) = some s') :
    x.Holds s' ∧ x.measure s' < x.measure s := by
  rw [measure_sending sends.threads]
  obtain ⟨env, rest, p, n, envs, split, brings, handled, own, other, took, sent⟩ :=
    FilePair.deliver_cases stepped
  cases side with
  | a =>
      rw [sends.inbox] at split
      cases acks with
      | nil => cases split
      | cons k ks =>
          obtain ⟨rfl, rfl⟩ := List.cons.inj split
          cases brings
          cases handled
          have after : x.Sends (s'.node .a) (s'.inbox .a) t
              { cell with acked := k, started := true } ks := by
            have acked := sends.acked
            rw [sends.inbox] at acked
            rw [own, took]
            simp only [List.filterMap_nil, List.append_nil]
            exact acked
          simp only [Side.other] at other sent
          refine ⟨.sending _ _ _ after ?_, ?_⟩
          · rw [other, sent]
            simp only [List.filterMap_nil, List.append_nil]
            exact flows.acked
          · rw [measure_sending after.threads, took, sent, sends.inbox]
            simp only [List.filterMap_nil, List.append_nil, List.map_cons, List.length_cons]
            omega
  | b =>
      rw [split] at flows
      obtain ⟨more, rfl, few, rising, flows⟩ :=
        flows.delivered sends.keeps sends.rising brings works handled
      simp only [Side.other] at other sent
      have after : x.Sends (s'.node .a) (s'.inbox .a) t cell (acks ++ more) := by
        rw [other, sent, sends.inbox, ← List.map_append]
        exact ⟨sends.seq, sends.threads, sends.shared, sends.sends, sends.own, sends.size,
          sends.place, sends.going, rfl, rising, sends.keeps, sends.ended⟩
      refine ⟨.sending _ _ _ after ?_, ?_⟩
      · rw [own, took]
        exact flows
      · rw [measure_sending after.threads, took, sent, split]
        simp only [List.length_append, List.length_map, List.length_cons]
        omega

/-- Every step leads on, and leaves less to do. -/
theorem Holds.step (h : x.Holds s) (ok : x.Single s l) (stepped : x.machine.step s l = some s') :
    x.Holds s' ∧ x.measure s' < x.measure s := by
  cases h with
  | idle start =>
      subst start
      exact holds_first ok stepped
  | sending t cell acks sends flows =>
      cases l with
      | sendFile side path size spawned =>
          obtain ⟨-, -, -, -, first⟩ := ok
          exact absurd first sends.seq
      | cancel side id reason => exact ok.elim
      | thread side i act => exact Holds.ran sends flows ok stepped
      | deliver side plan => exact Holds.arrived sends flows ok stepped

/-- What is on its way is taken. -/
theorem stuck_inbox (stuck : x.machine.Stuck x.Single s) {side : Side} {env : Envelope}
    {rest : List Envelope} {p : Payload} (there : s.inbox side = env :: rest)
    (brings : env.payload = some p) :
    (s.node side).files.handle x.crypto (diskOps .reliable) (s.node side).fs p = none := by
  have blocked : s.step x.crypto (.deliver side .reliable) = none :=
    stuck (.deliver side .reliable) IoPlan.reliable_works
  obtain ⟨payload⟩ := env
  cases brings
  simp only [FilePair.step, there, List.head?_cons, FilePair.run, FilePair.take, FileNode.step,
    Option.map_eq_none_iff] at blocked
  exact blocked

/-- A thread that can take a step takes it. -/
theorem Sends.stuck {t : SendThread} {cell : SendShared} {acks : List Nat} {inbox : List Envelope}
    {act : SendAct} (h : x.Sends (s.node .a) inbox t cell acks)
    (stuck : x.machine.Stuck x.Single s) (reads : t.Reads x.crypto x.src act) :
    t.act cell act = none := by
  have blocked : s.step x.crypto (.thread .a 0 act) = none := by
    refine stuck (.thread .a 0 act) fun t' member => ?_
    rw [h.threads] at member
    cases member
    exact reads
  simp only [FilePair.step, FilePair.run, FileNode.step, FileNode.runThread, h.threads, h.shared,
    h.place, List.getElem?_cons_zero, Option.map_eq_none_iff] at blocked
  exact blocked

/-- Every phase but the last leads on. -/
theorem Holds.stuck (h : x.Holds s) (stuck : x.machine.Stuck x.Single s) :
    ∃ t cell, x.Sends (s.node .a) (s.inbox .a) t cell [] ∧ t.phase = .stopped ∧
      x.Flows .stopped cell [] (s.node .b) [] := by
  cases h with
  | idle start =>
      subst start
      have blocked := stuck (.sendFile .a x.path x.src.length true) ⟨rfl, rfl, rfl, rfl, rfl⟩
      cases blocked
  | sending t cell acks sends flows =>
      have taken : acks = [] := by
        cases acks with
        | nil => rfl
        | cons k ks => cases stuck_inbox stuck sends.inbox rfl
      subst taken
      cases arrived : s.inbox .b with
      | cons env rest =>
          rw [arrived] at flows
          obtain ⟨p, brings, handled⟩ := flows.handled
          exact absurd (stuck_inbox stuck arrived brings) (handled _)
      | nil =>
      rw [arrived] at flows
      have keeps := sends.keeps
      cases at_ : t.phase with
      | hash =>
          have blocked := sends.stuck stuck (show t.Reads x.crypto x.src (.hash _) from
            ⟨fun _ => some 1, fun _ => rfl, rfl⟩)
          rw [hashFile_reads (fun _ => rfl)] at blocked
          simp only [SendThread.act, at_, reduceCtorEq] at blocked
      | openFile digest =>
          have blocked := sends.stuck stuck (show t.Reads x.crypto x.src (.openFile true) from rfl)
          simp only [SendThread.act, at_, reduceCtorEq] at blocked
      | awaitStart digest =>
          have blocked := sends.stuck stuck (show t.Reads x.crypto x.src (.start true) from rfl)
          rw [at_] at flows
          simp only [SendThread.act, at_, flows.answered_started trivial, if_true, reduceCtorEq]
            at blocked
      | loop digest next =>
          have blocked := sends.stuck stuck (show t.Reads x.crypto x.src .check from trivial)
          rw [at_] at flows
          obtain ⟨started, st, takes, carries⟩ := flows.sending rfl
          have here : st.written = next := by
            cases carries
            rfl
          obtain ⟨done, fits⟩ := takes.paid
          rw [here] at done fits
          simp only [SendThread.act, at_, sends.going, sends.size, Bool.false_eq_true, if_false]
            at blocked
          by_cases left : x.src.length ≤ next
          · simp only [if_pos left, if_pos (done left), reduceCtorEq] at blocked
          · simp only [if_neg left, if_neg fits, reduceCtorEq] at blocked
      | read digest next =>
          rw [at_] at keeps
          have reads : t.Reads x.crypto x.src (.read (some ((x.src.drop next).take
              (min (min (t.size - next) chunkSize) (max 1 1))))) := by
            intro digest' next' same
            rw [at_] at same
            cases same
            exact ⟨1, rfl⟩
          refine absurd (sends.stuck stuck reads) (SendThread.act_read cell at_ ?_)
          exact Nat.le_trans (List.length_take_le _ _) (Nat.min_le_left ..)
      | progress digest next =>
          have blocked := sends.stuck stuck (show t.Reads x.crypto x.src .report from trivial)
          simp only [SendThread.act, at_, reduceCtorEq] at blocked
      | complete digest =>
          have blocked := sends.stuck stuck (show t.Reads x.crypto x.src .complete from trivial)
          simp only [SendThread.act, at_, reduceCtorEq] at blocked
      | completed =>
          have blocked := sends.stuck stuck (show t.Reads x.crypto x.src .report from trivial)
          simp only [SendThread.act, at_, reduceCtorEq] at blocked
      | stopped =>
          rw [at_] at flows
          exact ⟨t, cell, sends, at_, flows⟩

theorem holds {s : FilePair} (run : x.machine.ReachableBy x.Single s) : x.Holds s := by
  refine run.invariant (fun s first => .idle first) (fun s l s' holds ok stepped => ?_)
  exact (holds.step ok stepped).1

/-- Only the whole of what was meant to arrive is reported. -/
theorem Flows.reported {phase : SendPhase} {cell : SendShared} {acks : List Nat} {m : FileNode}
    {envs : List Envelope} (h : x.Flows phase cell acks m envs) {id path : String}
    (reported : .completed id (some path) ∈ m.events) :
    Receiver.contents m.fs path = some x.whole ∧ x.crypto.sha256 x.whole = x.digest := by
  cases h with
  | offered early waits nothing => cases reported
  | answered early takes written answer => exact absurd reported (takes.quiet id path)
  | streaming at_ started takes carries => exact absurd reported (takes.quiet id path)
  | settled started takes => exact absurd reported (takes.quiet id path)
  | announced ended started takes => exact absurd reported (takes.quiet id path)
  | decided idle ended intact named => exact named id path reported

theorem Flows.finished {cell : SendShared} {acks : List Nat} {m : FileNode}
    (h : x.Flows .stopped cell acks m []) (intact : x.crypto.sha256 x.whole = x.digest) :
    ∃ path, .completed x.id (some path) ∈ m.events := by
  cases h with
  | answered early takes written answer => cases early
  | streaming at_ started takes carries => cases at_
  | decided idle ended known named => exact known intact

theorem unacked_lt {digest : Bytes} {size acked : Nat} {phase : SendPhase}
    (keeps : phase.Keeps digest size acked) : phase.sent size - acked < window + chunkSize := by
  cases phase with
  | loop d next => exact keeps.2.2
  | progress d next => exact keeps.2.2
  | read d next =>
      have := keeps.2.2
      simp only [SendPhase.sent]
      omega
  | complete d =>
      have := keeps.2
      simp only [SendPhase.sent, window]
      omega
  | _ =>
      simp only [SendPhase.sent, SendPhase.Keeps, window] at keeps ⊢
      omega

end

end

/-- What the receiver reports is the source, as far as digests tell, and less than a window and a
chunk is ever on its way without an acknowledgement. From a `.part` that the source starts with,
every run comes to an end, and then both sides have reported the file. -/
theorem file_arrives (x : Transfer) :
    (∀ s, x.machine.ReachableBy x.Single s →
      (x.Resists → ∀ id path, .completed id (some path) ∈ (s.node .b).events →
        Receiver.contents (s.node .b).fs path = some x.src) ∧
      ∀ (i : Nat) (t : SendThread) (cell : SendShared), (s.node .a).threads[i]? = some t →
        (s.node .a).files.shared[t.cell]? = some cell →
          t.phase.sent t.size - cell.acked < window + chunkSize) ∧
    ((∀ bytes, x.part = some bytes → bytes <+: x.src) →
      (∀ run, ¬ x.machine.Endless x.Single run) ∧
      ∀ s, x.machine.ReachableBy x.Single s → x.machine.Stuck x.Single s →
        .completed x.id none ∈ (s.node .a).events ∧
          ∃ path, .completed x.id (some path) ∈ (s.node .b).events) := by
  constructor
  · intro s run
    cases holds run with
    | idle start =>
        subst start
        constructor
        · intro _ id path reported
          cases reported
        · intro i t cell member
          cases member
    | sending t cell acks sends flows =>
        constructor
        · intro resists id path reported
          obtain ⟨there, intact⟩ := flows.reported reported
          rw [there, resists x.whole length_whole intact]
        · intro i t' cell' member held
          rw [sends.threads] at member
          obtain rfl : t' = t := by
            cases i with
            | zero => exact (Option.some.inj member).symm
            | succ i => cases member
          rw [sends.shared, sends.place] at held
          cases held
          rw [sends.size]
          exact unacked_lt sends.keeps
  · intro fits
    constructor
    · exact Machine.not_endless x.measure fun s l s' run ok stepped => ((holds run).step ok stepped).2
    · intro s run stuck
      obtain ⟨t, cell, sends, stopped, flows⟩ := (holds run).stuck stuck
      refine ⟨sends.ended stopped, flows.finished ?_⟩
      rw [whole_src fits]
      rfl

/-- A `.part` that holds the first of three bytes. -/
def sample : Transfer where
  crypto := sampleCrypto
  path := "f"
  src := [1, 2, 3]
  dirs _ := "dl"
  stores _ :=
    let opened := Receiver.emptyStore.openWrite "dl/f.part"
    opened.1.write 0 opened.2 [1]

/-- The rest of the file, a byte at a time. -/
def sampleRun : List PairAct :=
  [.sendFile .a "f" 3 true, .thread .a 0 (.hash (some [1, 2, 3])), .thread .a 0 (.openFile true),
    .deliver .b .reliable, .deliver .a .reliable, .thread .a 0 (.start true),
    .thread .a 0 .check, .thread .a 0 (.read (some [2])), .thread .a 0 .report,
    .thread .a 0 .check, .deliver .b .reliable, .thread .a 0 (.read (some [3])),
    .thread .a 0 .report, .deliver .b .reliable, .deliver .a .reliable, .thread .a 0 .check,
    .thread .a 0 .complete, .deliver .b .reliable]

/-- What can be decided of a step that reads a byte at a time. -/
def sampleOk (s : FilePair) : PairAct → Prop
  | .sendFile side path size spawned =>
    side = .a ∧ path = "f" ∧ size = 3 ∧ spawned = true ∧ (s.node .a).seq = 0
  | .cancel .. => False
  | .thread _ _ (.hash digest) => digest = some [1, 2, 3]
  | .thread _ _ (.openFile opens) => opens = true
  | .thread _ _ (.start seeks) => seeks = true
  | .thread side i (.read got) =>
    (s.node side).threads[i]?.all fun t =>
      match t.phase with
      | .read _ next =>
        got = some ((sample.src.drop next).take (min (min (t.size - next) chunkSize) 1))
      | _ => true
  | .thread .. | .deliver .. => True

instance (s : FilePair) : ∀ l, Decidable (sampleOk s l)
  | .sendFile .. => inferInstanceAs (Decidable (_ ∧ _ ∧ _ ∧ _ ∧ _))
  | .cancel .. => .isFalse fun cancelled => cancelled
  | .thread _ _ (.hash _) => inferInstanceAs (Decidable (_ = _))
  | .thread _ _ (.openFile _) | .thread _ _ (.start _) | .thread _ _ (.read _) =>
    inferInstanceAs (Decidable (_ = true))
  | .thread _ _ .check | .thread _ _ .report | .thread _ _ .complete | .deliver .. =>
    .isTrue trivial

theorem single_sample (l : PairAct) (member : l ∈ sampleRun) (s : FilePair) (ok : sampleOk s l) :
    sample.Single s l := by
  cases l with
  | sendFile side path size spawned => exact ok
  | cancel side id reason => exact ok
  | thread side i act =>
      intro t there
      cases act with
      | hash digest => exact ⟨fun _ => some 1, fun _ => rfl, ok⟩
      | openFile opens => exact ok
      | start seeks => exact ok
      | read got =>
          intro digest next at_
          simp only [sampleOk, there, Option.all_some, at_, decide_eq_true_eq] at ok
          exact ⟨1, ok⟩
      | check => trivial
      | report => trivial
      | complete => trivial
  | deliver side plan =>
      have same : plan = .reliable := by
        simp only [sampleRun, List.mem_cons, List.not_mem_nil, reduceCtorEq, PairAct.deliver.injEq,
          false_or, or_false] at member
        grind
      subst same
      exact IoPlan.reliable_works

theorem file_arrives_resumed : ∃ s, sample.machine.ReachableBy sample.Single s ∧
    Receiver.contents (s.node .b).fs "dl/f" = some [1, 2, 3] := by
  obtain ⟨s, run, reported⟩ := sample.machine.exists_reachableBy_of sampleOk rfl sampleRun
    single_sample (fun s => .completed "tx-1-f" (some "dl/f") ∈ (s.node .b).events) (by decide)
  refine ⟨s, run, ?_⟩
  exact ((file_arrives sample).1 s run).1 (fun _ _ same => same) _ _ reported

end Transfer
end ReachMyDevice
