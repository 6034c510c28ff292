import ReachMyDevice.FileIntegrity
import ReachMyDevice.FileSender

/-!
# A stream of chunks and its receiver

What the receiver does with the envelopes of a sender that keeps to the protocol,
when no call of the file system fails.
-/
namespace ReachMyDevice
open FileSystem FileTransfers Receiver

/-- No call fails; a read returns as many bytes as it likes. -/
structure IoPlan.Works (plan : IoPlan) : Prop where
  createDirAll : plan.createDirAll = none
  metadata : plan.metadata = true
  openRead : plan.openRead = true
  read : ∀ place, (plan.read place).isSome = true
  openWrite : plan.openWrite = none
  setLen : plan.setLen = true
  seek : plan.seek = true
  write : plan.write = none
  remove : plan.remove = true
  rename : plan.rename = none

theorem IoPlan.reliable_works : IoPlan.reliable.Works := by
  constructor <;> first | rfl | exact fun _ => rfl

theorem IoPlan.Works.stores {plan : IoPlan} (h : plan.Works) (bytes : Bytes) :
    plan.stores bytes = bytes.length := by
  simp only [IoPlan.stores, h.write, Option.getD_none, Nat.min_self]

/-- Chunks on their way that carry a source from one place to another. -/
inductive Carries (id : String) (src : Bytes) : Nat → List Envelope → Nat → Prop
  | nil (n : Nat) : Carries id src n [] n
  | cons {n m : Nat} {bytes : Bytes} {rest : List Envelope} (some_ : bytes ≠ [])
      (piece : bytes <+: src.drop n) (more : Carries id src (n + bytes.length) rest m) :
      Carries id src n (fileChunk id n bytes :: rest) m

namespace Carries
variable {id : String} {src : Bytes} {n m : Nat} {envs : List Envelope}

theorem le (h : Carries id src n envs m) : n ≤ m := by
  induction h with
  | nil n => exact Nat.le_refl n
  | cons some_ piece more ih => omega

theorem concat (h : Carries id src n envs m) {bytes : Bytes} (some_ : bytes ≠ [])
    (piece : bytes <+: src.drop m) :
    Carries id src n (envs ++ [fileChunk id m bytes]) (m + bytes.length) := by
  induction h with
  | nil n => exact .cons some_ piece (.nil _)
  | cons first own more ih => exact .cons first own (ih piece)

theorem nil_of_le (h : Carries id src n envs m) (le : m ≤ n) : envs = [] := by
  cases h with
  | nil n => rfl
  | cons some_ piece more =>
      have := List.length_pos_iff.mpr some_
      have := more.le
      omega

end Carries

/-- A transfer that is under way: it agrees with its file, which is written where it ends, and it
has acknowledged what it has to. -/
structure Receives (fs : FileStore) (st : RecvState Handle) : Prop where
  agrees : Agrees fs st
  cursor : st.file.cursor = st.written
  within : st.written ≤ st.size
  lastAck : st.lastAck ≤ st.written
  owed : st.written - st.lastAck < ackEvery
  full : st.written = st.size → st.lastAck = st.size

/-- A full transfer has the whole of its file hashed. -/
theorem Receives.hashed {fs : FileStore} {st : RecvState Handle} (h : Receives fs st)
    (full : st.written = st.size) : fs.data st.file.inode = st.hasher := by
  have bounded := h.agrees.bounded
  rw [← h.agrees.hashed, List.take_of_length_le]
  omega

section
variable {crypto : Crypto} {plan : IoPlan} {t t' : FileTransfers Handle} {fs fs' : FileStore}
  {out : List FileOut}

/-- An offer is taken on at the length of the `.part`, as far as that is within the size. -/
theorem handles_offer (works : plan.Works) {o : FileOffer} (alone : t.recvs = ∅)
    (h : t.handle crypto (diskOps plan) fs (.fileOffer o) = some (t', fs', out)) :
    ∃ st, t' = { t with recvs := t.recvs.insert o.transferId st } ∧ Receives fs' st ∧
      st.finalPath = t.finalPath o ∧ st.size = o.size ∧ st.lastAck = st.written ∧
      st.hasher = ((contents fs (t.partPath o)).getD []).take o.size ∧
      st.written = min ((contents fs (t.partPath o)).getD []).length o.size ∧
      out = [.event (.offered o.transferId o.name o.size), .out (fileAck o.transferId st.written)] := by
  cases handle_cases h with
  | refused reason made =>
      simp only [diskOps, works.createDirAll] at made
      cases made
  | unopened reason made opened =>
      simp only [diskOps, works.openWrite] at opened
      cases opened
  | ignored known =>
      obtain ⟨c, same, -⟩ | ⟨c, same, -⟩ := known
      · cases same
      · cases same
  | @offered _ d₁ d₂ file made opened st starts =>
      obtain ⟨rfl, -⟩ := createDirAll_fs made
      obtain ⟨-, opened⟩ := openWrite_opens opened
      have resumes : st.written = min ((contents d₁ (t.partPath o)).getD []).length o.size := by
        simp only [starts, admitted, resumeAt, diskOps, works.metadata, if_true, Fs.len, contents]
        cases d₁.names (t.partPath o) <;> rfl
      have taken : TakesOn { files := t, fs := d₁, emitted := [], receipts := [] } plan o := by
        refine ⟨fun id st known => ?_, fun stays => ?_, fun _ => ⟨works.openRead, fun place _ =>
          works.read place⟩⟩
        · simp only [alone, AList.lookup_empty, reduceCtorEq] at known
        · rw [works.setLen] at stays
          cases stays
      have agrees := agrees_of_offer taken opened starts
      have hashed := rehashed_part taken opened
      refine ⟨st, rfl, ⟨agrees, ?_, ?_, ?_, ?_, ?_⟩, ?_, ?_, ?_, ?_, resumes, rfl⟩
      · simp only [starts, admitted, diskOps, works.seek, if_true]
      · rw [resumes, starts]
        exact Nat.min_le_right ..
      · rw [starts]
        exact Nat.le_refl _
      · rw [starts]
        simp only [admitted, Nat.sub_self, ackEvery]
        omega
      · intro full
        rw [← full, starts]
        rfl
      · rw [starts]
        rfl
      · rw [starts]
        rfl
      · rw [starts]
        rfl
      · have own : st.hasher = (d₂.data file.inode).take st.written := by
          rw [starts]
          exact hashed
        have there : d₂.data file.inode = (contents d₁ (t.partPath o)).getD [] := by
          obtain ⟨named, same⟩ | ⟨nothing, empty⟩ := opened_part (s := ⟨t, d₁, [], []⟩) opened
          · simp only at named same
            rw [same, contents, named, Option.map_some, Option.getD_some]
          · simp only at nothing
            rw [empty, contents, nothing, Option.map_none, Option.getD_none]
        rw [own, there, resumes, Nat.min_comm, ← List.take_eq_take_min]

/-- The chunk that comes next is stored, and acknowledged when that is due. -/
theorem handles_chunk (works : plan.Works) {id : String} {st : RecvState Handle} {bytes : Bytes}
    (known : t.recvs.lookup id = some st) (receives : Receives fs st)
    (fits : st.written + bytes.length ≤ st.size)
    (h : t.handle crypto (diskOps plan) fs
      (.fileChunk { transferId := id, offset := st.written, data := bytes }) = some (t', fs', out)) :
    ∃ st', t' = { t with recvs := t.recvs.insert id st' } ∧ Receives fs' st' ∧
      st'.finalPath = st.finalPath ∧ st'.size = st.size ∧
      st'.written = st.written + bytes.length ∧ st'.hasher = st.hasher ++ bytes ∧
      (st'.lastAck = st.lastAck ∧ out = [.event (.progress id st'.written st.size)] ∨
        st'.lastAck = st'.written ∧
          out = [.event (.progress id st'.written st.size), .out (fileAck id st'.written)]) := by
  cases handle_cases h with
  | ignored same =>
      obtain ⟨c, same, stale⟩ | ⟨c, same, -⟩ := same
      · cases same
        exact absurd (stale st known) (Nat.lt_irrefl _)
      · cases same
  | gap known' ahead =>
      rw [known, Option.some.injEq] at known'
      subst known'
      exact absurd ahead (Nat.lt_irrefl _)
  | torn known' next wrote =>
      rw [known, Option.some.injEq] at known'
      subst known'
      have complete := (writeAll_writes wrote).2.2
      exact absurd (complete.mpr (works.stores bytes)) Bool.false_ne_true
  | appended known' next wrote =>
      rw [known, Option.some.injEq] at known'
      subst known'
      obtain ⟨rfl, rfl, -⟩ := writeAll_writes wrote
      rw [works.stores]
      refine ⟨_, rfl, ⟨?_, ?_, fits, ?_, ?_, ?_⟩, rfl, rfl, rfl, rfl, ?_⟩
      · exact receives.agrees.stored (fun _ => receives.cursor) rfl
      · simp only [stored, receives.cursor]
      · have lastAck := receives.lastAck
        simp only [stored]
        split <;> omega
      · simp only [stored]
        split
        · simp only [Nat.sub_self, ackEvery]
          omega
        · rename_i early
          simp only [due, not_or, Nat.not_le] at early
          exact early.1
      · intro full
        simp only [stored] at full ⊢
        rw [if_pos (.inr full)]
        exact full
      · by_cases now : due st (st.written + bytes.length)
        · refine .inr ⟨?_, ?_⟩
          · simp only [stored, if_pos now]
          · rw [if_pos now]
            rfl
        · refine .inl ⟨?_, ?_⟩
          · simp only [stored, if_neg now]
          · rw [if_neg now]
            rfl

/-- A transfer that is full ends as its digest has it. -/
theorem handles_complete (works : plan.Works) {id : String} {st : RecvState Handle} {sha256 : Bytes}
    (known : t.recvs.lookup id = some st) (receives : Receives fs st) (full : st.written = st.size)
    (h : t.handle crypto (diskOps plan) fs (.fileComplete { transferId := id, sha256 }) =
      some (t', fs', out)) :
    (crypto.sha256 st.hasher = sha256 ∧ out = [.event (.completed id (some st.finalPath))] ∧
        contents fs' st.finalPath = some st.hasher) ∨
      crypto.sha256 st.hasher ≠ sha256 ∧ ∃ reason, out = [fail id reason] := by
  cases handle_cases h with
  | ignored same =>
      obtain ⟨c, same, -⟩ | ⟨c, same, unknown⟩ := same
      · cases same
      · cases same
        simp only [known, reduceCtorEq] at unknown
  | rejected reason known' bad =>
      rw [known, Option.some.injEq] at known'
      subst known'
      obtain short | corrupt := bad
      · exact absurd full short
      · exact .inr ⟨corrupt, reason, rfl⟩
  | unnamed reason known' _ digest renamed =>
      rw [known, Option.some.injEq] at known'
      subst known'
      have gone := (rename_refuses renamed).2 works.rename
      have named := receives.agrees.named
      simp only [diskOps] at gone
      rw [named] at gone
      cases gone
  | finished known' _ digest renamed =>
      rw [known, Option.some.injEq] at known'
      subst known'
      obtain ⟨inode, moved⟩ := Fs.rename_renamed _ (rename_names renamed).2
      refine .inl ⟨digest, rfl, ?_⟩
      have same : st.file.inode = inode := by
        have before := moved.before
        simp only [diskOps] at before
        rw [receives.agrees.named] at before
        exact Option.some.inj before
      rw [contents, moved.after, Option.map_some, moved.data, ← same]
      exact congrArg some (receives.hashed full)

end

end ReachMyDevice
