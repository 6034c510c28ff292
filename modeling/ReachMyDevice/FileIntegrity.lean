import ReachMyDevice.FileHandling
import ReachMyDevice.FileReceiver

/-!
# What a finished file holds

The receiver never reads a file back: its digest is built beside the file, chunk
by chunk. A transfer agrees with its file as long as nobody else writes it, its
`.part` was re-hashed to the end and every chunk is stored where the last ended.
-/
namespace ReachMyDevice
open Machines FileSystem

namespace FileTransfers

/-- Re-hashing absorbs the whole of what is asked for, if it is there and no read fails. -/
theorem rehash_absorbs (plan : IoPlan) (d : FileStore) (fuel : Nat) (h : Handle) (left : Nat)
    (hasher : Bytes) (enough : left ≤ fuel) (there : h.cursor + left ≤ (d.data h.inode).length)
    (reads : ∀ place, place < h.cursor + left → (plan.read place).isSome = true) :
    rehash (diskOps plan) d fuel h left hasher =
      hasher ++ ((d.data h.inode).drop h.cursor).take left := by
  induction fuel generalizing h left hasher with
  | zero =>
      have nothing : left = 0 := by omega
      rw [nothing, List.take_zero, List.append_nil]
      rfl
  | succ fuel ih =>
      simp only [rehash]
      split
      · rename_i nothing
        rw [nothing, List.take_zero, List.append_nil]
      · rename_i some_
        obtain ⟨most, goes⟩ := Option.isSome_iff_exists.mp (reads h.cursor (by omega))
        let n := min (min left chunkSize) (max 1 most)
        have n_pos : 0 < n := by simp only [n, chunkSize]; omega
        have n_le : n ≤ left := by simp only [n]; omega
        have length : (((d.data h.inode).drop h.cursor).take n).length = n := by
          rw [List.length_take, List.length_drop]
          omega
        have read : (diskOps plan).read d h (min left chunkSize) =
            ({ h with cursor := h.cursor + n }, some (((d.data h.inode).drop h.cursor).take n)) := by
          simp only [diskOps, goes, Fs.readAt]
          rw [length]
        rw [read]
        split
        · rename_i failed
          cases failed
        · rename_i ended
          simp only [Prod.mk.injEq, Option.some.injEq] at ended
          rw [ended.2, List.length_nil] at length
          omega
        · rename_i h' bytes took
          simp only [Prod.mk.injEq, Option.some.injEq] at took
          obtain ⟨rfl, rfl⟩ := took
          rw [length, ih { h with cursor := h.cursor + n } (left - n) _ (by omega)
            (by simp only; omega) (fun place before => reads place (by simp only at before; omega))]
          simp only
          rw [List.append_assoc, ← List.drop_drop, ← List.take_add, Nat.add_sub_cancel' n_le]

end FileTransfers

namespace Receiver
open FileTransfers

/-- What a transfer under way keeps to: its hasher has absorbed what its `.part` starts with. -/
structure Agrees (fs : FileStore) (st : RecvState Handle) : Prop where
  named : fs.names st.partPath = some st.file.inode
  hashed : (fs.data st.file.inode).take st.written = st.hasher
  reached : st.written ≤ (fs.data st.file.inode).length
  bounded : (fs.data st.file.inode).length ≤ max st.written st.size

/-- The named file has the offered size and the digest of the `FileComplete`. -/
def Intact (crypto : Crypto) (r : Receipt) : Prop :=
  ∃ bytes, r.contents = some bytes ∧ r.offered = some bytes.length ∧ crypto.sha256 bytes = r.sha256

structure Sound (crypto : Crypto) (s : Receiver) : Prop where
  agrees : ∀ id st, s.files.recvs.lookup id = some st → Agrees s.fs st
  offered : ∀ id st, s.files.recvs.lookup id = some st → offeredSize s.emitted id = some st.size
  apart : ∀ id st id' st', s.files.recvs.lookup id = some st → s.files.recvs.lookup id' = some st' →
    id ≠ id' → st.file.inode ≠ st'.file.inode
  intact : ∀ r, r ∈ s.receipts → Intact crypto r

/-- An offer that is taken on finds a `.part` which no other transfer has open, is re-hashed
without an error, and a `.part` that stays longer than the file is cut. -/
def TakesOn (s : Receiver) (plan : IoPlan) (o : FileOffer) : Prop :=
  (∀ id st, s.files.recvs.lookup id = some st → id ≠ o.transferId →
    s.fs.names (s.files.partPath o) ≠ some st.file.inode) ∧
  (plan.setLen = false → (s.fs.len (s.files.partPath o)).getD 0 ≤ o.size) ∧
  (0 < s.files.resumeAt (diskOps plan) s.fs o → plan.openRead = true ∧
    ∀ place, place < s.files.resumeAt (diskOps plan) s.fs o → (plan.read place).isSome = true)

/-- Whatever is written of a chunk is written where the last chunk ended, and a chunk of which
only a part is written does not reach over the end. -/
def StoredInPlace (s : Receiver) (plan : IoPlan) (c : FileChunk) : Prop :=
  ∀ st, s.files.recvs.lookup c.transferId = some st → c.offset = st.written →
    0 < plan.stores c.data → st.file.cursor = st.written ∧
      (plan.stores c.data < c.data.length → st.written + plan.stores c.data ≤ st.size)

/-- A transfer that is finished does not take the name of another transfer's `.part`. -/
def NamedApart (crypto : Crypto) (s : Receiver) (plan : IoPlan) (c : FileComplete) : Prop :=
  ∀ st, s.files.recvs.lookup c.transferId = some st → st.written = st.size →
    crypto.sha256 st.hasher = c.sha256 → plan.rename = none →
      ∀ id st', s.files.recvs.lookup id = some st' → id ≠ c.transferId → st'.partPath ≠ st.finalPath

def Undisturbed (crypto : Crypto) (s : Receiver) (l : Payload × IoPlan) : Prop :=
  match l.1 with
  | .fileOffer o => l.2.createDirAll = none → l.2.openWrite = none → s.TakesOn l.2 o
  | .fileChunk c => s.StoredInPlace l.2 c
  | .fileComplete c => s.NamedApart crypto l.2 c
  | _ => True

instance (s : Receiver) (plan : IoPlan) (o : FileOffer) : Decidable (s.TakesOn plan o) :=
  inferInstanceAs (Decidable (_ ∧ _ ∧ _))

instance (s : Receiver) (plan : IoPlan) (c : FileChunk) : Decidable (s.StoredInPlace plan c) :=
  inferInstanceAs (Decidable (∀ _, _ = _ → _))

instance (crypto : Crypto) (s : Receiver) (plan : IoPlan) (c : FileComplete) :
    Decidable (s.NamedApart crypto plan c) :=
  inferInstanceAs (Decidable (∀ _, _ = _ → _))

instance (crypto : Crypto) (s : Receiver) : ∀ l, Decidable (Undisturbed crypto s l)
  | (.fileOffer o, plan) =>
    inferInstanceAs (Decidable (plan.createDirAll = none → plan.openWrite = none → s.TakesOn plan o))
  | (.fileChunk c, plan) => inferInstanceAs (Decidable (s.StoredInPlace plan c))
  | (.fileComplete c, plan) => inferInstanceAs (Decidable (s.NamedApart crypto plan c))
  | (.fileAck _, _) | (.fileCancel _, _) | (.hello _, _) | (.helloAck _, _) | (.input _, _)
  | (.ping _, _) | (.pong _, _) | (.bye _, _) | (.clipboard _, _) | (.displayList _, _)
  | (.selectDisplay _, _) | (.requestKeyframe, _) | (.viewOnly _, _) | (.audio _ _, _)
  | (.setZoom _, _) => .isTrue trivial

section
variable {fs fs' : FileStore} {st : RecvState Handle}

theorem Agrees.frame (h : Agrees fs st) (names : fs'.names st.partPath = fs.names st.partPath)
    (data : fs'.data st.file.inode = fs.data st.file.inode) : Agrees fs' st := by
  constructor
  · rw [names]
    exact h.named
  · rw [data]
    exact h.hashed
  · rw [data]
    exact h.reached
  · rw [data]
    exact h.bounded

section
variable {plan : IoPlan} {s : Receiver} {o : FileOffer} {d : FileStore} {file : Handle}

/-- What the opened `.part` has to do with the one that was there. -/
theorem opened_part (opened : s.fs.Opened (s.files.partPath o) d file) :
    s.fs.names (s.files.partPath o) = some file.inode ∧
        d.data file.inode = s.fs.data file.inode ∨
      s.fs.names (s.files.partPath o) = none ∧ d.data file.inode = [] := by
  obtain named | ⟨nothing, -⟩ := opened.before
  · exact .inl ⟨named, opened.data _ (s.fs.used _ _ named)⟩
  · exact .inr ⟨nothing, opened.fresh nothing⟩

theorem resumeAt_le (plan : IoPlan) (opened : s.fs.Opened (s.files.partPath o) d file) :
    s.files.resumeAt (diskOps plan) s.fs o ≤ (d.data file.inode).length := by
  simp only [resumeAt, diskOps, Fs.len]
  obtain ⟨named, same⟩ | ⟨nothing, -⟩ := opened_part opened
  · rw [named, same]
    split
    · exact Nat.min_le_left ..
    · simp
  · rw [nothing]
    split <;> simp

theorem rehashed_part (taken : s.TakesOn plan o)
    (opened : s.fs.Opened (s.files.partPath o) d file) :
    s.files.rehashed (diskOps plan) s.fs o =
      (d.data file.inode).take (s.files.resumeAt (diskOps plan) s.fs o) := by
  have le := resumeAt_le plan opened
  simp only [rehashed]
  split
  · rename_i some_
    obtain ⟨opens, reads⟩ := taken.2.2 some_
    obtain ⟨named, same⟩ | ⟨-, empty⟩ := opened_part opened
    · have found : (diskOps plan).openRead s.fs (s.files.partPath o) =
          some { inode := file.inode, cursor := 0 } := by
        simp only [diskOps, opens, Fs.openRead, named, Option.map_some, if_true]
      rw [same] at le ⊢
      rw [found]
      simp only
      rw [rehash_absorbs plan s.fs _ _ _ _ (Nat.le_refl _) (by simp only; omega)
        (fun place before => reads place (by simp only at before; omega))]
      simp
    · rw [empty, List.length_nil] at le
      omega
  · rename_i nothing
    rw [Nat.eq_zero_of_not_pos nothing, List.take_zero]

/-- A transfer that is taken on agrees with its `.part`. -/
theorem agrees_of_offer (taken : s.TakesOn plan o)
    (opened : s.fs.Opened (s.files.partPath o) d file) {st : RecvState Handle}
    (starts : st = s.files.admitted (diskOps plan) s.fs o ((diskOps plan).seekStart
      ((diskOps plan).setLen d file (s.files.resumeAt (diskOps plan) s.fs o)) file
      (s.files.resumeAt (diskOps plan) s.fs o))) :
    Agrees ((diskOps plan).setLen d file (s.files.resumeAt (diskOps plan) s.fs o)) st := by
  have le := resumeAt_le plan opened
  have inode : st.file.inode = file.inode := by
    simp only [starts, admitted, seekStart_inode]
  have hasher : st.hasher = (d.data file.inode).take st.written := by
    rw [starts]
    exact rehashed_part taken opened
  have written : st.written = s.files.resumeAt (diskOps plan) s.fs o := by
    rw [starts]
    rfl
  have size : st.size = o.size := by
    rw [starts]
    rfl
  have path : st.partPath = s.files.partPath o := by
    rw [starts]
    rfl
  have cut := setLen_cuts plan le
  cases cuts : plan.setLen with
  | true =>
      rw [cuts, if_pos rfl] at cut
      constructor
      · rw [path, inode, setLen_names]
        exact opened.named
      · rw [inode, cut, hasher, written, List.take_take, Nat.min_self]
      · rw [inode, cut, written, List.length_take_of_le le]
      · rw [inode, cut, written, List.length_take_of_le le]
        exact Nat.le_max_left ..
  | false =>
      rw [cuts, if_neg Bool.false_ne_true] at cut
      constructor
      · rw [path, inode, setLen_names]
        exact opened.named
      · rw [inode, cut, hasher]
      · rw [inode, cut, written]
        exact le
      · rw [inode, cut, size]
        obtain ⟨named, same⟩ | ⟨-, empty⟩ := opened_part opened
        · have fits := taken.2.1 cuts
          rw [Fs.len, named, Option.map_some, Option.getD_some] at fits
          rw [same]
          omega
        · rw [empty, List.length_nil]
          omega

end

/-- A chunk that is stored in place, wholly or in part. -/
theorem Agrees.write {k : Nat} {data : Bytes} (h : Agrees fs st) (k_le : k ≤ data.length)
    (place : 0 < k → st.file.cursor = st.written) :
    (fs.write 0 st.file (data.take k)).data st.file.inode =
      (fs.data st.file.inode).take st.written ++ data.take k ++
        (fs.data st.file.inode).drop (st.written + k) := by
  simp only [Fs.write, Fs.setData_same]
  by_cases some_ : 0 < k
  · rw [place some_, overwrite_inside _ _ h.reached, List.length_take_of_le k_le]
  · have nothing : k = 0 := by omega
    simp [nothing, overwrite]

/-- The transfer after a chunk of which only a part was written. -/
theorem Agrees.torn {k : Nat} {data : Bytes} (h : Agrees fs st) (k_le : k ≤ data.length)
    (place : 0 < k → st.file.cursor = st.written) (fits : 0 < k → st.written + k ≤ st.size)
    {file : Handle} (inode : file.inode = st.file.inode) :
    Agrees (fs.write 0 st.file (data.take k)) { st with file := file } := by
  have after := h.write k_le place
  have reached := h.reached
  have bounded := h.bounded
  constructor
  · simp only
    rw [inode]
    exact h.named
  · simp only
    rw [inode, after, List.append_assoc, List.take_append_of_le_length, List.take_take, Nat.min_self]
    · exact h.hashed
    · rw [List.length_take_of_le reached]
  · simp only
    rw [inode, after]
    simp only [List.length_append, List.length_take, List.length_drop]
    omega
  · simp only
    rw [inode, after]
    simp only [List.length_append, List.length_take, List.length_drop]
    by_cases some_ : 0 < k
    · have := fits some_
      omega
    · omega

/-- The transfer after a chunk that was stored. -/
theorem Agrees.stored {data : Bytes} (h : Agrees fs st)
    (place : 0 < data.length → st.file.cursor = st.written) {file : Handle}
    (inode : file.inode = st.file.inode) :
    Agrees (fs.write 0 st.file (data.take data.length)) (FileTransfers.stored st file data) := by
  have after := h.write (Nat.le_refl _) place
  have reached := h.reached
  have bounded := h.bounded
  rw [List.take_length] at after ⊢
  constructor
  · simp only [FileTransfers.stored]
    rw [inode]
    exact h.named
  · simp only [FileTransfers.stored]
    rw [inode, after, List.take_append_of_le_length, List.take_of_length_le, h.hashed]
    · simp only [List.length_append, List.length_take]
      omega
    · simp only [List.length_append, List.length_take]
      omega
  · simp only [FileTransfers.stored]
    rw [inode, after]
    simp only [List.length_append, List.length_take, List.length_drop]
    omega
  · simp only [FileTransfers.stored]
    rw [inode, after]
    simp only [List.length_append, List.length_take, List.length_drop]
    omega

end

theorem sound_start {crypto : Crypto} {s : Receiver} (h : (machine crypto).init s) :
    Sound crypto s := by
  obtain ⟨downloadDir, fs, rfl⟩ := h
  constructor
  · intro id st known
    cases known
  · intro id st known
    cases known
  · intro id st id' st' known
    cases known
  · intro r reported
    cases reported

section
variable {crypto : Crypto} {s : Receiver} {fs : FileStore} {id : String} {st st' : RecvState Handle}

/-- One transfer goes on, and the files of the others are as they were. -/
theorem Sound.goesOn (h : Sound crypto s) (known : s.files.recvs.lookup id = some st)
    (agrees : Agrees fs st') (inode : st'.file.inode = st.file.inode) (size : st'.size = st.size)
    (names : fs.names = s.fs.names)
    (others : ∀ other, other ≠ st.file.inode → fs.data other = s.fs.data other)
    {out : List FileOut} (quiet : ∀ other o, o ∈ out → o.offeredSize other = none) :
    Sound crypto { s with
      files := { s.files with recvs := s.files.recvs.insert id st' }, fs := fs,
      emitted := s.emitted ++ out } := by
  constructor
  · intro id' b known'
    obtain ⟨-, rfl⟩ | ⟨ne, known'⟩ := lookup_insert_cases known'
    · exact agrees
    · exact (h.agrees id' b known').frame (by rw [names])
        (others _ (h.apart id' b id st known' known ne))
  · intro id' b known'
    simp only
    rw [offeredSize_quiet (quiet id')]
    obtain ⟨rfl, rfl⟩ | ⟨-, known'⟩ := lookup_insert_cases known'
    · rw [size]
      exact h.offered id' st known
    · exact h.offered id' b known'
  · intro id₁ b₁ id₂ b₂ known₁ known₂ ne
    obtain ⟨rfl, rfl⟩ | ⟨ne₁, old₁⟩ := lookup_insert_cases known₁
    · obtain ⟨same, -⟩ | ⟨-, old₂⟩ := lookup_insert_cases known₂
      · exact absurd same.symm ne
      · rw [inode]
        exact h.apart _ _ _ _ known old₂ ne
    · obtain ⟨rfl, rfl⟩ | ⟨-, old₂⟩ := lookup_insert_cases known₂
      · rw [inode]
        exact h.apart _ _ _ _ old₁ known ne₁
      · exact h.apart _ _ _ _ old₁ old₂ ne
  · exact h.intact

/-- One transfer is over, and what the others rely on is as it was. -/
theorem Sound.ends (h : Sound crypto s) {files : FileTransfers Handle}
    (recvs : files.recvs = s.files.recvs.erase id) (data : fs.data = s.fs.data)
    (names : ∀ id' st', s.files.recvs.lookup id' = some st' → id' ≠ id →
      fs.names st'.partPath = s.fs.names st'.partPath)
    {out : List FileOut} (quiet : ∀ other o, o ∈ out → o.offeredSize other = none)
    {receipts : List Receipt} (intact : ∀ r, r ∈ receipts → Intact crypto r) :
    Sound crypto {
      files := files, fs := fs, emitted := s.emitted ++ out,
      receipts := s.receipts ++ receipts } := by
  have still : ∀ id' b, files.recvs.lookup id' = some b →
      id' ≠ id ∧ s.files.recvs.lookup id' = some b := by
    intro id' b known
    rw [recvs] at known
    exact lookup_erase_some known
  constructor
  · intro id' b known
    obtain ⟨ne, known⟩ := still id' b known
    exact (h.agrees id' b known).frame (names id' b known ne) (by rw [data])
  · intro id' b known
    simp only
    rw [offeredSize_quiet (quiet id')]
    exact h.offered id' b (still id' b known).2
  · intro id₁ b₁ id₂ b₂ known₁ known₂ ne
    exact h.apart _ _ _ _ (still _ _ known₁).2 (still _ _ known₂).2 ne
  · intro r reported
    obtain earlier | now := List.mem_append.mp reported
    · exact h.intact r earlier
    · exact intact r now

/-- A transfer is taken on. -/
theorem Sound.takesOn (h : Sound crypto s) {plan : IoPlan} {o : FileOffer} {d : FileStore}
    {file : Handle} (taken : s.TakesOn plan o) (opened : s.fs.Opened (s.files.partPath o) d file)
    (starts : st = s.files.admitted (diskOps plan) s.fs o ((diskOps plan).seekStart
      ((diskOps plan).setLen d file (s.files.resumeAt (diskOps plan) s.fs o)) file
      (s.files.resumeAt (diskOps plan) s.fs o))) :
    Sound crypto { s with
      files := { s.files with recvs := s.files.recvs.insert o.transferId st }
      fs := (diskOps plan).setLen d file (s.files.resumeAt (diskOps plan) s.fs o)
      emitted := s.emitted ++ [.event (.offered o.transferId o.name o.size),
        .out (fileAck o.transferId st.written)] } := by
  have inode : st.file.inode = file.inode := by
    simp only [starts, admitted, seekStart_inode]
  have size : st.size = o.size := by
    rw [starts]
    rfl
  have path : ∀ id' b, s.files.recvs.lookup id' = some b → id' ≠ o.transferId →
      b.partPath ≠ s.files.partPath o ∧ b.file.inode ≠ file.inode := by
    intro id' b known ne
    have alone := taken.1 id' b known ne
    have named := (h.agrees id' b known).named
    refine ⟨fun same => alone (same ▸ named), fun same => ?_⟩
    obtain before | ⟨-, new⟩ := opened.before
    · rw [← same] at before
      exact alone before
    · have := s.fs.used _ _ named
      omega
  constructor
  · intro id' b known
    obtain ⟨-, rfl⟩ | ⟨ne, known⟩ := lookup_insert_cases known
    · exact agrees_of_offer taken opened starts
    · obtain ⟨other, apart⟩ := path id' b known ne
      refine (h.agrees id' b known).frame ?_ ?_
      · rw [setLen_names]
        exact opened.same _ other
      · rw [setLen_other apart]
        exact opened.data _ (s.fs.used _ _ (h.agrees id' b known).named)
  · intro id' b known
    obtain ⟨rfl, rfl⟩ | ⟨ne, known⟩ := lookup_insert_cases known
    · rw [size]
      exact offeredSize_offered ..
    · simp only
      rw [offeredSize_quiet (by simp [FileOut.offeredSize, Ne.symm ne])]
      exact h.offered id' b known
  · intro id₁ b₁ id₂ b₂ known₁ known₂ ne
    obtain ⟨rfl, rfl⟩ | ⟨ne₁, old₁⟩ := lookup_insert_cases known₁
    · obtain ⟨same, -⟩ | ⟨ne₂, old₂⟩ := lookup_insert_cases known₂
      · exact absurd same.symm ne
      · rw [inode]
        exact (path id₂ b₂ old₂ ne₂).2.symm
    · obtain ⟨rfl, rfl⟩ | ⟨-, old₂⟩ := lookup_insert_cases known₂
      · rw [inode]
        exact (path id₁ b₁ old₁ ne₁).2
      · exact h.apart _ _ _ _ old₁ old₂ ne
  · exact h.intact

/-- What a finished transfer has left under its name. -/
theorem Sound.intact_receipt (h : Sound crypto s) {sha256 : Bytes}
    (known : s.files.recvs.lookup id = some st) (full : st.written = st.size)
    (digest : crypto.sha256 st.hasher = sha256) {inode : Nat}
    (renamed : s.fs.Renamed st.partPath st.finalPath fs inode) :
    Intact crypto {
      transferId := id, path := st.finalPath, offered := offeredSize s.emitted id, sha256
      contents := contents fs st.finalPath } := by
  have agrees := h.agrees id st known
  have same : inode = st.file.inode := by
    have := renamed.before.symm.trans agrees.named
    exact Option.some.inj this
  have length : (s.fs.data st.file.inode).length = st.written := by
    have := agrees.reached
    have := agrees.bounded
    omega
  have whole : s.fs.data st.file.inode = st.hasher := by
    rw [← agrees.hashed, List.take_of_length_le (Nat.le_of_eq length)]
  refine ⟨st.hasher, ?_, ?_, digest⟩
  · simp only [contents]
    rw [renamed.after, same, Option.map_some, renamed.data, whole]
  · rw [← whole, length, full]
    exact h.offered id st known

end

/-- Nothing of the transfers and their files changes. -/
theorem Sound.stays {crypto : Crypto} {s : Receiver} (h : Sound crypto s)
    {files : FileTransfers Handle} (recvs : files.recvs = s.files.recvs) {out : List FileOut}
    (quiet : ∀ other o, o ∈ out → o.offeredSize other = none) :
    Sound crypto { s with files := files, emitted := s.emitted ++ out } := by
  constructor
  · intro id st known
    exact h.agrees id st (recvs ▸ known)
  · intro id st known
    simp only
    rw [offeredSize_quiet (quiet id)]
    exact h.offered id st (recvs ▸ known)
  · intro id st id' st' known known'
    exact h.apart id st id' st' (recvs ▸ known) (recvs ▸ known')
  · exact h.intact

theorem quiet_nil (other : String) (o : FileOut) (member : o ∈ []) : o.offeredSize other = none := by
  cases member

theorem quiet_fail (id reason other : String) (o : FileOut) (member : o ∈ [fail id reason]) :
    o.offeredSize other = none := by
  rw [List.mem_singleton.mp member]
  rfl

/-- A transfer that is over leaves the `.part` of every other one under its name. -/
theorem Sound.partPath_ne {crypto : Crypto} {s : Receiver} (h : Sound crypto s) {id id' : String}
    {st st' : RecvState Handle} (known : s.files.recvs.lookup id = some st)
    (known' : s.files.recvs.lookup id' = some st') (ne : id' ≠ id) : st'.partPath ≠ st.partPath := by
  intro same
  have named := (h.agrees id' st' known').named
  rw [same, (h.agrees id st known).named, Option.some.injEq] at named
  exact h.apart id st id' st' known known' (Ne.symm ne) named

theorem sound_step {crypto : Crypto} {s s' : Receiver} {l : Payload × IoPlan}
    (h : Sound crypto s) (met : Undisturbed crypto s l)
    (stepped : (machine crypto).step s l = some s') : Sound crypto s' := by
  obtain ⟨p, plan⟩ := l
  obtain ⟨r, handled, rfl⟩ := Option.map_eq_some_iff.mp stepped
  obtain ⟨t', d', out⟩ := r
  have all := handle_cases handled
  cases all with
  | refused reason made =>
      obtain ⟨rfl, -⟩ := createDirAll_fs made
      simp only [receiptsOf, List.append_nil]
      exact h.stays rfl (quiet_fail _ _)
  | unopened reason made opened =>
      obtain ⟨rfl, -⟩ := createDirAll_fs made
      obtain rfl := openWrite_refuses opened
      simp only [receiptsOf, List.append_nil]
      exact h.stays rfl (quiet_fail _ _)
  | offered made opened starts =>
      obtain ⟨rfl, makes⟩ := createDirAll_fs made
      obtain ⟨opens, opened⟩ := openWrite_opens opened
      simp only [receiptsOf, List.append_nil]
      exact h.takesOn (met (makes rfl) opens) opened starts
  | ignored known =>
      simp only [receiptsOf_nil, List.append_nil]
      have same := h.stays rfl quiet_nil
      rw [List.append_nil] at same
      exact same
  | gap known ahead =>
      simp only [receiptsOf, List.append_nil]
      exact h.stays rfl (quiet_fail _ _)
  | torn known next wrote =>
      rename_i c st file
      obtain ⟨rfl, rfl, part⟩ := writeAll_writes wrote
      have le : plan.stores c.data ≤ c.data.length := Nat.min_le_left ..
      have less : plan.stores c.data < c.data.length := by
        simp only [Bool.false_eq_true, false_iff] at part
        omega
      have place := met st known next
      have agrees : Agrees (s.fs.write 0 st.file (c.data.take (plan.stores c.data)))
          { st with file := { st.file with cursor := st.file.cursor + plan.stores c.data } } :=
        (h.agrees _ _ known).torn le (fun some_ => (place some_).1)
          (fun some_ => (place some_).2 less) rfl
      simp only [receiptsOf, List.append_nil]
      exact h.goesOn known agrees rfl rfl rfl (fun other ne => Fs.setData_other _ ne _)
        (quiet_fail _ _)
  | appended known next wrote =>
      rename_i c st file
      obtain ⟨rfl, rfl, whole⟩ := writeAll_writes wrote
      have whole := whole.mp rfl
      have place := met st known next
      rw [whole] at place ⊢
      have agrees : Agrees (s.fs.write 0 st.file (c.data.take c.data.length))
          (stored st { st.file with cursor := st.file.cursor + c.data.length } c.data) :=
        (h.agrees _ _ known).stored (fun some_ => (place some_).1) rfl
      simp only [receiptsOf, List.append_nil]
      refine h.goesOn known agrees rfl rfl rfl (fun other ne => Fs.setData_other _ ne _) ?_
      intro other o member
      split at member <;> simp only [List.mem_cons, List.not_mem_nil, or_false] at member
      · obtain rfl | rfl := member <;> rfl
      · rw [member]
        rfl
  | rejected reason known bad =>
      refine h.ends rfl (removeFile_data _) (fun id' st' known' ne => ?_) (quiet_fail _ _) ?_
      · have apart := h.partPath_ne known known' ne
        simp only [diskOps]
        split
        · exact Fs.remove_other _ apart
        · rfl
      · intro r reported
        cases reported
  | unnamed reason known full digest renamed =>
      obtain ⟨rfl, -⟩ := rename_refuses renamed
      refine h.ends rfl rfl (fun _ _ _ _ => rfl) (quiet_fail _ _) ?_
      intro r reported
      cases reported
  | finished known full digest renamed =>
      obtain ⟨works, renamed⟩ := rename_names renamed
      obtain ⟨inode, renamed⟩ := Fs.rename_renamed _ renamed
      have intact := h.intact_receipt known full digest renamed
      refine h.ends rfl renamed.data (fun id' st' known' ne => ?_) ?_ ?_
      · exact renamed.same _ (h.partPath_ne known known' ne)
          (met _ known full digest works id' st' known' ne)
      · intro other o member
        rw [List.mem_singleton.mp member]
        rfl
      · intro r reported
        rw [List.mem_singleton.mp reported]
        exact intact
  | acked =>
      rename_i a
      simp only [receiptsOf, List.append_nil]
      have same := h.stays (onAck_recvs s.files a) quiet_nil
      rw [List.append_nil] at same
      exact same
  | cancelled =>
      refine h.ends rfl rfl (fun _ _ _ _ => rfl) (quiet_fail _ _) ?_
      intro r reported
      cases reported

/-- What a `Completed` names is the whole file that was offered, with the announced digest. -/
theorem completed_intact (crypto : Crypto) {s : Receiver}
    (h : (machine crypto).ReachableBy (Undisturbed crypto) s) {r : Receipt} (reported : r ∈ s.receipts) :
    Intact crypto r :=
  (h.invariant (fun _ => sound_start) (fun _ _ _ sound met step => sound_step sound met step)).intact
    r reported

theorem completed_intact_pair :
    ∃ s, (machine sampleCrypto).ReachableBy (Undisturbed sampleCrypto) s ∧
      s.receipts.map (·.path) = ["dl/b", "dl/a"] ∧ ∀ r, r ∈ s.receipts → Intact sampleCrypto r := by
  obtain ⟨s, run, paths⟩ := (machine sampleCrypto).exists_reachableBy (Undisturbed sampleCrypto)
    ⟨"dl", emptyStore, rfl⟩
    [sampleOffer "x" "a" 2, sampleOffer "y" "b" 1, sampleChunk "x" 0 [1], sampleChunk "y" 0 [2],
      sampleChunk "x" 1 [3], sampleComplete "y" [2], sampleComplete "x" [1, 3]]
    (fun s => s.receipts.map (·.path) = ["dl/b", "dl/a"]) (by decide)
  exact ⟨s, run, paths, fun r reported => completed_intact sampleCrypto run reported⟩

/-- Two transfers of one name share a `.part`: what one has stored, the other overwrites, and
neither hasher notices. -/
theorem same_name_corrupts :
    ∃ s, (machine sampleCrypto).Reachable s ∧ ∃ r, r ∈ s.receipts ∧ ¬ Intact sampleCrypto r := by
  obtain ⟨s, run, receipts⟩ := (machine sampleCrypto).exists_reachableBy Machine.Always
    ⟨"dl", emptyStore, rfl⟩
    [sampleOffer "x" "a" 1, sampleOffer "y" "a" 1, sampleChunk "x" 0 [1], sampleChunk "y" 0 [2],
      sampleComplete "x" [1]]
    (fun s => s.receipts =
      [{ transferId := "x", path := "dl/a", offered := some 1, sha256 := [1], contents := some [2] }])
    (by decide)
  refine ⟨s, run, _, receipts ▸ List.mem_singleton_self _, ?_⟩
  rintro ⟨bytes, holds, -, digest⟩
  cases holds
  cases digest

end Receiver
end ReachMyDevice
