import ReachMyDevice.FileIntegrity

/-!
# How much an inbound transfer stores

A chunk is stored whatever its length: the announced size bounds a transfer only
as long as the peer keeps to it, and as long as no larger transfer has the file.
-/
namespace ReachMyDevice
namespace Receiver
open Machines FileSystem FileTransfers

/-- The file is the one the transfer has open, or the one its `.part` names. -/
def Holds (fs : FileStore) (st : RecvState Handle) (inode : Nat) : Prop :=
  st.file.inode = inode ∨ fs.names st.partPath = some inode

instance (fs : FileStore) (st : RecvState Handle) (inode : Nat) : Decidable (Holds fs st inode) :=
  inferInstanceAs (Decidable (_ ∨ _))

/-- No transfer has stored more than was announced, in its books and on disk. -/
def Bounded (s : Receiver) : Prop :=
  ∀ id st, s.files.recvs.lookup id = some st →
    st.written ≤ st.size ∧ ∀ inode, Holds s.fs st inode → (s.fs.data inode).length ≤ st.size

/-- What is written of a chunk fits into every transfer that has the file, and a stored chunk
into its own. -/
def ChunkFits (s : Receiver) (plan : IoPlan) (c : FileChunk) : Prop :=
  ∀ st, s.files.recvs.lookup c.transferId = some st → c.offset = st.written →
    (plan.stores c.data = c.data.length → st.written + c.data.length ≤ st.size) ∧
    (0 < plan.stores c.data → ∀ id st', s.files.recvs.lookup id = some st' →
      Holds s.fs st' st.file.inode → st.file.cursor + plan.stores c.data ≤ st'.size)

/-- A finished file that gets the name of another transfer's `.part` fits into that one. -/
def NameFits (crypto : Crypto) (s : Receiver) (plan : IoPlan) (c : FileComplete) : Prop :=
  ∀ st, s.files.recvs.lookup c.transferId = some st → st.written = st.size →
    crypto.sha256 st.hasher = c.sha256 → plan.rename = none →
      ∀ id st', s.files.recvs.lookup id = some st' → id ≠ c.transferId →
        st'.partPath = st.finalPath → (s.fs.len st.partPath).getD 0 ≤ st'.size

def Fits (crypto : Crypto) (s : Receiver) (l : Payload × IoPlan) : Prop :=
  match l.1 with
  | .fileOffer o => l.2.createDirAll = none → l.2.openWrite = none → l.2.setLen = false →
      (s.fs.len (s.files.partPath o)).getD 0 ≤ o.size
  | .fileChunk c => s.ChunkFits l.2 c
  | .fileComplete c => s.NameFits crypto l.2 c
  | _ => True

/-- An open file has been given out by the file system. -/
def Used (s : Receiver) : Prop :=
  ∀ id st, s.files.recvs.lookup id = some st → st.file.inode < s.fs.next

theorem length_write (fs : FileStore) (h : Handle) (bytes : Bytes) :
    ((fs.write 0 h bytes).data h.inode).length =
      if bytes = [] then (fs.data h.inode).length
      else max (fs.data h.inode).length (h.cursor + bytes.length) := by
  simp only [Fs.write, Fs.setData_same, length_overwrite]

section
variable {s : Receiver} {id : String} {st st' : RecvState Handle} {plan : IoPlan}

/-- One transfer has written some bytes, and they fit into every transfer that has the file. -/
theorem Bounded.writes (h : Bounded s) (known : s.files.recvs.lookup id = some st) {k : Nat}
    {data : Bytes} (k_le : k ≤ data.length)
    (fits : 0 < k → ∀ id' b, s.files.recvs.lookup id' = some b → Holds s.fs b st.file.inode →
      st.file.cursor + k ≤ b.size)
    (inode : st'.file.inode = st.file.inode) (path : st'.partPath = st.partPath)
    (size : st'.size = st.size) (written : st'.written ≤ st'.size) (emitted : List FileOut)
    (receipts : List Receipt) :
    Bounded {
      files := { s.files with recvs := s.files.recvs.insert id st' }
      fs := s.fs.write 0 st.file (data.take k), emitted, receipts } := by
  have after : ∀ id' b, s.files.recvs.lookup id' = some b → ∀ target, Holds s.fs b target →
      ((s.fs.write 0 st.file (data.take k)).data target).length ≤ b.size := by
    intro id' b known' target holds
    have before := (h id' b known').2 target holds
    by_cases same : target = st.file.inode
    · rw [same, length_write]
      rw [same] at before holds
      split
      · exact before
      · rename_i something
        have some_ : 0 < k := by
          by_contra nothing
          exact something (by rw [Nat.eq_zero_of_not_pos nothing, List.take_zero])
        rw [List.length_take_of_le k_le]
        exact Nat.max_le.mpr ⟨before, fits some_ id' b known' holds⟩
    · have other : (s.fs.write 0 st.file (data.take k)).data target = s.fs.data target :=
        Fs.setData_other _ same _
      rw [other]
      exact before
  intro id' b known'
  obtain ⟨-, rfl⟩ | ⟨-, known'⟩ := lookup_insert_cases known'
  · refine ⟨written, fun target holds => ?_⟩
    rw [size]
    refine after id st known target ?_
    obtain opened | named := holds
    · exact .inl (inode.symm.trans opened)
    · exact .inr (path ▸ named)
  · exact ⟨(h id' b known').1, fun target holds => after id' b known' target holds⟩

/-- One transfer is over, and no other one's `.part` has become longer than it may be. -/
theorem Bounded.ends (h : Bounded s) {files : FileTransfers Handle}
    (recvs : files.recvs = s.files.recvs.erase id) {fs : FileStore} (data : fs.data = s.fs.data)
    (names : ∀ id' b, s.files.recvs.lookup id' = some b → id' ≠ id → ∀ target,
      fs.names b.partPath = some target →
        s.fs.names b.partPath = some target ∨ (s.fs.data target).length ≤ b.size)
    (emitted : List FileOut) (receipts : List Receipt) :
    Bounded { files, fs, emitted, receipts } := by
  intro id' b known
  simp only at known
  rw [recvs] at known
  obtain ⟨ne, known⟩ := lookup_erase_some known
  refine ⟨(h id' b known).1, fun target holds => ?_⟩
  simp only
  rw [data]
  obtain opened | named := holds
  · exact (h id' b known).2 target (.inl opened)
  · obtain before | fits := names id' b known ne target named
    · exact (h id' b known).2 target (.inr before)
    · exact fits

/-- A transfer is taken on: its `.part` is cut, or it is short enough. -/
theorem Bounded.takesOn (h : Bounded s) (used : Used s) {o : FileOffer} {d : FileStore}
    {file : Handle} (opened : s.fs.Opened (s.files.partPath o) d file)
    (fits : plan.setLen = false → (s.fs.len (s.files.partPath o)).getD 0 ≤ o.size)
    (starts : st = s.files.admitted (diskOps plan) s.fs o ((diskOps plan).seekStart
      ((diskOps plan).setLen d file (s.files.resumeAt (diskOps plan) s.fs o)) file
      (s.files.resumeAt (diskOps plan) s.fs o))) (emitted : List FileOut)
    (receipts : List Receipt) :
    Bounded {
      files := { s.files with recvs := s.files.recvs.insert o.transferId st }
      fs := (diskOps plan).setLen d file (s.files.resumeAt (diskOps plan) s.fs o)
      emitted, receipts } := by
  have le := resumeAt_le plan opened
  have cut := setLen_cuts plan le
  have inode : st.file.inode = file.inode := by
    simp only [starts, admitted, seekStart_inode]
  have path : st.partPath = s.files.partPath o := by
    rw [starts]
    rfl
  have size : st.size = o.size := by
    rw [starts]
    rfl
  have written : st.written ≤ st.size := by
    rw [starts]
    exact Nat.min_le_right ..
  have shorter : (((diskOps plan).setLen d file
      (s.files.resumeAt (diskOps plan) s.fs o)).data file.inode).length ≤
        (d.data file.inode).length := by
    rw [cut]
    split
    · exact List.length_take_le' ..
    · exact Nat.le_refl _
  intro id' b known
  obtain ⟨-, rfl⟩ | ⟨ne, known⟩ := lookup_insert_cases known
  · refine ⟨written, fun target holds => ?_⟩
    have same : target = file.inode := by
      obtain opens | named := holds
      · exact opens.symm.trans inode
      · rw [path, setLen_names, opened.named, Option.some.injEq] at named
        exact named.symm
    rw [same, size, cut]
    split
    · rw [List.length_take_of_le le]
      exact Nat.min_le_right ..
    · rename_i stays
      obtain ⟨named, same⟩ | ⟨-, empty⟩ := opened_part opened
      · have fits := fits (Bool.eq_false_iff.mpr stays)
        rw [Fs.len, named, Option.map_some, Option.getD_some] at fits
        rw [same]
        exact fits
      · rw [empty, List.length_nil]
        exact Nat.zero_le _
  · have bounded := h id' b known
    refine ⟨bounded.1, fun target holds => ?_⟩
    -- The file is one that the transfer had before, or the new and empty one.
    have before : Holds s.fs b target ∨ target = file.inode ∧ d.data file.inode = [] := by
      obtain opens | named := holds
      · exact .inl (.inl opens)
      · rw [setLen_names] at named
        by_cases same : b.partPath = s.files.partPath o
        · rw [same, opened.named, Option.some.injEq] at named
          obtain ⟨was, -⟩ | ⟨-, empty⟩ := opened_part opened
          · exact .inl (.inr (by rw [same, was, named]))
          · exact .inr ⟨named.symm, empty⟩
        · rw [opened.same _ same] at named
          exact .inl (.inr named)
    obtain holds | ⟨rfl, empty⟩ := before
    · have old : target < s.fs.next := by
        obtain opens | named := holds
        · exact opens ▸ used id' b known
        · exact s.fs.used _ _ named
      have length := bounded.2 target holds
      rw [← opened.data target old] at length
      by_cases same : target = file.inode
      · rw [same] at length ⊢
        exact Nat.le_trans shorter length
      · rw [setLen_other same]
        exact length
    · rw [empty, List.length_nil] at shorter
      exact Nat.le_trans shorter (Nat.zero_le _)

/-- Every handle that is in use after a step was given out before it or in it. -/
theorem used_step {crypto : Crypto} {s' : Receiver} {l : Payload × IoPlan} (h : Used s)
    (stepped : (machine crypto).step s l = some s') : Used s' := by
  obtain ⟨p, plan⟩ := l
  obtain ⟨r, handled, rfl⟩ := Option.map_eq_some_iff.mp stepped
  obtain ⟨t', d', out⟩ := r
  have all := handle_cases handled
  intro id b known
  cases all with
  | refused reason made =>
      obtain ⟨rfl, -⟩ := createDirAll_fs made
      exact h id b known
  | unopened reason made opened =>
      obtain ⟨rfl, -⟩ := createDirAll_fs made
      obtain rfl := openWrite_refuses opened
      exact h id b known
  | offered made opened starts =>
      obtain ⟨rfl, -⟩ := createDirAll_fs made
      obtain ⟨-, opened⟩ := openWrite_opens opened
      simp only [setLen_next]
      obtain ⟨-, rfl⟩ | ⟨-, known⟩ := lookup_insert_cases known
      · simp only [starts, admitted, seekStart_inode]
        exact opened.bound
      · exact Nat.lt_of_lt_of_le (h id b known) opened.grows
  | ignored => exact h id b known
  | gap => exact h id b known
  | torn own next wrote =>
      obtain ⟨rfl, rfl, -⟩ := writeAll_writes wrote
      have old := h _ _ own
      obtain ⟨-, rfl⟩ | ⟨-, known⟩ := lookup_insert_cases known
      · exact old
      · exact h id b known
  | appended own next wrote =>
      obtain ⟨rfl, rfl, -⟩ := writeAll_writes wrote
      have old := h _ _ own
      obtain ⟨-, rfl⟩ | ⟨-, known⟩ := lookup_insert_cases known
      · exact old
      · exact h id b known
  | rejected reason own bad =>
      simp only [removeFile_next]
      exact h id b (lookup_erase_some known).2
  | unnamed reason own full digest renamed =>
      obtain ⟨rfl, -⟩ := rename_refuses renamed
      exact h id b (lookup_erase_some known).2
  | finished own full digest renamed =>
      obtain ⟨-, renamed⟩ := rename_names renamed
      obtain ⟨inode, renamed⟩ := Fs.rename_renamed _ renamed
      simp only
      rw [renamed.next]
      exact h id b (lookup_erase_some known).2
  | acked =>
      simp only [onAck_recvs] at known
      exact h id b known
  | cancelled => exact h id b (lookup_erase_some known).2

theorem bounded_step {crypto : Crypto} {s' : Receiver} {l : Payload × IoPlan} (h : Bounded s)
    (used : Used s) (met : Fits crypto s l) (stepped : (machine crypto).step s l = some s') :
    Bounded s' := by
  obtain ⟨p, plan⟩ := l
  obtain ⟨r, handled, rfl⟩ := Option.map_eq_some_iff.mp stepped
  obtain ⟨t', d', out⟩ := r
  have all := handle_cases handled
  cases all with
  | refused reason made =>
      obtain ⟨rfl, -⟩ := createDirAll_fs made
      exact h
  | unopened reason made opened =>
      obtain ⟨rfl, -⟩ := createDirAll_fs made
      obtain rfl := openWrite_refuses opened
      exact h
  | offered made opened starts =>
      obtain ⟨rfl, makes⟩ := createDirAll_fs made
      obtain ⟨opens, opened⟩ := openWrite_opens opened
      exact h.takesOn used opened (met (makes rfl) opens) starts _ _
  | ignored => exact h
  | gap => exact h
  | torn known next wrote =>
      obtain ⟨rfl, rfl, -⟩ := writeAll_writes wrote
      have written := (h _ _ known).1
      refine h.writes known (Nat.min_le_left ..) (met _ known next).2 ?_ ?_ ?_ ?_ _ _
      · rfl
      · rfl
      · rfl
      · exact written
  | appended known next wrote =>
      obtain ⟨rfl, rfl, whole⟩ := writeAll_writes wrote
      have written := (met _ known next).1 (whole.mp rfl)
      refine h.writes known (Nat.min_le_left ..) (met _ known next).2 ?_ ?_ ?_ ?_ _ _
      · rfl
      · rfl
      · rfl
      · exact written
  | rejected reason known bad =>
      refine h.ends rfl (removeFile_data _) (fun id b _ _ target named => .inl ?_) _ _
      exact removeFile_only named
  | unnamed reason known full digest renamed =>
      obtain ⟨rfl, -⟩ := rename_refuses renamed
      exact h.ends rfl rfl (fun _ _ _ _ _ named => .inl named) _ _
  | finished known full digest renamed =>
      obtain ⟨works, renamed⟩ := rename_names renamed
      obtain ⟨inode, renamed⟩ := Fs.rename_renamed _ renamed
      refine h.ends rfl renamed.data (fun id b known' ne target named => ?_) _ _
      obtain ⟨path, same⟩ | before := renamed.only _ _ named
      · have fits := met _ known full digest works id b known' ne path
        rw [same]
        rw [Fs.len, show s.fs.names _ = _ from renamed.before] at fits
        exact .inr fits
      · exact .inl before
  | acked =>
      intro id b known
      simp only [onAck_recvs] at known
      exact h id b known
  | cancelled => exact h.ends rfl rfl (fun _ _ _ _ _ named => .inl named) _ _

end

theorem stores_bounded (crypto : Crypto) {s : Receiver}
    (h : (machine crypto).ReachableBy (Fits crypto) s) : Bounded s := by
  have invariant : Bounded s ∧ Used s := by
    refine h.invariant (I := fun s => Bounded s ∧ Used s) (fun s first => ?_) (fun s l s' good met step => ?_)
    · obtain ⟨downloadDir, fs, rfl⟩ := first
      constructor
      · intro id st known
        cases known
      · intro id st known
        cases known
    · exact ⟨bounded_step good.1 good.2 met step, used_step good.2 step⟩
  exact invariant.1

instance (s : Receiver) : Decidable (Bounded s) :=
  decidable_of_iff (∀ id st, s.files.recvs.lookup id = some st → st.written ≤ st.size ∧
      (s.fs.data st.file.inode).length ≤ st.size ∧
        (s.fs.len st.partPath).getD 0 ≤ st.size) (by
    constructor
    · intro all id st known
      obtain ⟨written, opened, named⟩ := all id st known
      refine ⟨written, fun inode holds => ?_⟩
      obtain rfl | names := holds
      · exact opened
      · rw [Fs.len, names] at named
        exact named
    · intro bounded id st known
      obtain ⟨written, fits⟩ := bounded id st known
      refine ⟨written, fits _ (.inl rfl), ?_⟩
      cases names : s.fs.names st.partPath with
      | none => simp [Fs.len, names]
      | some inode =>
          rw [Fs.len, names]
          exact fits inode (.inr names))

instance (s : Receiver) (plan : IoPlan) (c : FileChunk) : Decidable (s.ChunkFits plan c) :=
  inferInstanceAs (Decidable (∀ _, _ = _ → _))

instance (crypto : Crypto) (s : Receiver) (plan : IoPlan) (c : FileComplete) :
    Decidable (s.NameFits crypto plan c) :=
  inferInstanceAs (Decidable (∀ _, _ = _ → _))

instance (crypto : Crypto) (s : Receiver) : ∀ l, Decidable (Fits crypto s l)
  | (.fileOffer o, plan) =>
    inferInstanceAs (Decidable (plan.createDirAll = none → plan.openWrite = none →
      plan.setLen = false → (s.fs.len (s.files.partPath o)).getD 0 ≤ o.size))
  | (.fileChunk c, plan) => inferInstanceAs (Decidable (s.ChunkFits plan c))
  | (.fileComplete c, plan) => inferInstanceAs (Decidable (s.NameFits crypto plan c))
  | (.fileAck _, _) | (.fileCancel _, _) | (.hello _, _) | (.helloAck _, _) | (.input _, _)
  | (.ping _, _) | (.pong _, _) | (.bye _, _) | (.clipboard _, _) | (.displayList _, _)
  | (.selectDisplay _, _) | (.requestKeyframe, _) | (.viewOnly _, _) | (.audio _ _, _)
  | (.setZoom _, _) => .isTrue trivial

theorem stores_bounded_half : ∃ s, (machine sampleCrypto).ReachableBy (Fits sampleCrypto) s ∧
    (s.files.recvs.lookup "x").map (·.written) = some 2 ∧ Bounded s := by
  obtain ⟨s, run, written⟩ := (machine sampleCrypto).exists_reachableBy (Fits sampleCrypto)
    ⟨"dl", emptyStore, rfl⟩ [sampleOffer "x" "a" 3, sampleChunk "x" 0 [1, 2]]
    (fun s => (s.files.recvs.lookup "x").map (·.written) = some 2) (by decide)
  exact ⟨s, run, written, stores_bounded sampleCrypto run⟩

/-- A chunk that is longer than the announced file is stored. -/
theorem long_chunk_is_stored : ∃ s, (machine sampleCrypto).Reachable s ∧ ¬ Bounded s :=
  (machine sampleCrypto).exists_reachableBy Machine.Always ⟨"dl", emptyStore, rfl⟩
    [sampleOffer "x" "a" 1, sampleChunk "x" 0 [1, 2]] (fun s => ¬ Bounded s) (by decide)

end Receiver
end ReachMyDevice
