import ReachMyDevice.Downloads

/-!
# What becomes of finished files

A finished file shares the directory with the `.part` of every other transfer, and
nothing keeps the two apart. It is kept as long as no transfer has it for its
`.part`; the names that are offered decide whether one ever has.
-/
namespace ReachMyDevice
open Machines FileSystem

namespace Downloads
open FileTransfers

/-- Every file that was reported as completed is still there, as it was reported last. -/
def Kept (s : Downloads) : Prop :=
  ∀ path held, s.reported.lookup path = some held →
    held.isSome ∧ Receiver.contents s.fs path = held

instance (s : Downloads) : Decidable s.Kept :=
  inferInstanceAs (Decidable (∀ path held, s.reported.lookup path = some held → _))

/-- A file that was reported as completed is at this place of the disk. -/
def Finished (s : Downloads) (inode : Nat) : Prop :=
  ∃ e, e ∈ s.reported.entries ∧ s.fs.names e.1 = some inode

instance (s : Downloads) (inode : Nat) : Decidable (s.Finished inode) :=
  inferInstanceAs (Decidable (∃ e, e ∈ s.reported.entries ∧ _))

/-- A finished file that has the name of the offer's `.part` is not cut. -/
def OffersClear (s : Downloads) (plan : IoPlan) (o : FileOffer) : Prop :=
  plan.createDirAll = none → plan.openWrite = none → plan.setLen = true →
    ∀ inode, s.fs.names (s.files.partPath o) = some inode → s.Finished inode →
      (s.fs.data inode).length ≤ if plan.metadata then o.size else 0

/-- A chunk of which anything is written does not go to a finished file. -/
def WritesClear (s : Downloads) (plan : IoPlan) (c : FileChunk) : Prop :=
  ∀ st, s.files.recvs.lookup c.transferId = some st → c.offset = st.written →
    0 < plan.stores c.data → ¬ s.Finished st.file.2.inode

/-- A `.part` that is removed, or renamed to another file, is not reported as completed. -/
def EndsClear (crypto : Crypto) (s : Downloads) (plan : IoPlan) (c : FileComplete) : Prop :=
  ∀ st, s.files.recvs.lookup c.transferId = some st → st.partPath ∈ s.reported →
    if st.written = st.size ∧ crypto.sha256 st.hasher = c.sha256 then
      plan.rename = none → s.fs.names st.finalPath = s.fs.names st.partPath
    else plan.remove = false

/-- No finished file is cut, written, removed or renamed as a `.part`. -/
def Spares (crypto : Crypto) (s : Downloads) (l : Payload × IoPlan) : Prop :=
  match l.1 with
  | .fileOffer o => s.OffersClear l.2 o
  | .fileChunk c => s.WritesClear l.2 c
  | .fileComplete c => s.EndsClear crypto l.2 c
  | _ => True

section
variable {crypto : Crypto} {dir : String} {s s' : Downloads} {l : Payload × IoPlan}

/-- The finished files are untouched. -/
theorem Kept.frame (h : s.Kept) (reported : s'.reported = s.reported)
    (names : ∀ path, path ∈ s.reported → s'.fs.names path = s.fs.names path)
    (data : ∀ inode, s.Finished inode → s'.fs.data inode = s.fs.data inode) : s'.Kept := by
  intro path held known
  rw [reported] at known
  obtain ⟨some_, same⟩ := h path held known
  refine ⟨some_, ?_⟩
  rw [← same, Receiver.contents, Receiver.contents,
    names path (AList.lookup_isSome.mp (Option.isSome_of_mem known))]
  cases refers : s.fs.names path with
  | none => rfl
  | some inode =>
      have finished : s.Finished inode := ⟨⟨path, held⟩, AList.mem_lookup_iff.mp known, refers⟩
      rw [Option.map_some, Option.map_some, data inode finished]

/-- A finished file has its name. -/
theorem Kept.named (h : s.Kept) {path : String} (known : path ∈ s.reported) :
    ∃ inode, s.fs.names path = some inode ∧ s.Finished inode := by
  obtain ⟨held, found⟩ := Option.isSome_iff_exists.mp (AList.lookup_isSome.mpr known)
  obtain ⟨some_, same⟩ := h path held found
  rw [← same, Receiver.contents, Option.isSome_map] at some_
  obtain ⟨inode, refers⟩ := Option.isSome_iff_exists.mp some_
  exact ⟨inode, refers, ⟨path, held⟩, AList.mem_lookup_iff.mp found, refers⟩

theorem Finished.used {inode : Nat} (h : s.Finished inode) : inode < s.fs.next := by
  obtain ⟨e, -, refers⟩ := h
  exact s.fs.used e.1 inode refers

/-- An offer opens its `.part`, and cuts it where the transfer goes on. -/
theorem Kept.offered (h : s.Kept) {plan : IoPlan} {o : FileOffer} {d : FileStore} {file : Handle}
    (clear : plan.setLen = true → ∀ inode, s.fs.names (s.files.partPath o) = some inode →
      s.Finished inode → (s.fs.data inode).length ≤ if plan.metadata then o.size else 0)
    (opened : s.fs.Opened (s.files.partPath o) d file) (reported : s'.reported = s.reported)
    (fs : s'.fs = (diskOps plan).setLen d file
      (s.files.resumeAt (watched (diskOps plan)) (s.fs, s.acts) o)) : s'.Kept := by
  refine h.frame reported (fun path known => ?_) (fun inode finished => ?_)
  · rw [fs, setLen_names]
    by_cases same : path = s.files.partPath o
    · obtain ⟨inode, refers, -⟩ := h.named known
      rw [same] at refers ⊢
      obtain before | ⟨before, -⟩ := opened.before
      · rw [opened.named, before]
      · rw [before] at refers
        cases refers
    · exact opened.same path same
  · rw [fs]
    by_cases same : inode = file.inode
    · have before : s.fs.names (s.files.partPath o) = some inode := by
        obtain before | ⟨-, fresh⟩ := opened.before
        · rw [before, same]
        · have := finished.used
          omega
      have kept := opened.data inode finished.used
      rw [← kept, same]
      cases cuts : plan.setLen with
      | false => simp only [diskOps, cuts, Bool.false_eq_true, if_false]
      | true =>
          have fits := clear cuts inode before finished
          have whole : s.files.resumeAt (watched (diskOps plan)) (s.fs, s.acts) o =
              (d.data file.inode).length := by
            rw [← same, kept]
            simp only [resumeAt, watched, diskOps, Fs.len, before, Option.map_some]
            split at fits
            · rename_i measured
              rw [if_pos measured, Option.getD_some]
              omega
            · rename_i unmeasured
              rw [if_neg unmeasured, Option.getD_none]
              omega
          rw [setLen_cuts plan (Nat.le_of_eq whole), cuts, if_pos rfl, whole, List.take_length]
    · rw [setLen_other same, opened.data inode finished.used]

/-- What is written of a chunk goes to a file that is not finished. -/
theorem Kept.wrote (h : s.Kept) {file : Handle} {bytes : Bytes}
    (clear : bytes ≠ [] → ¬ s.Finished file.inode) (reported : s'.reported = s.reported)
    (fs : s'.fs = s.fs.write 0 file bytes) : s'.Kept := by
  refine h.frame reported (fun path _ => by rw [fs]; rfl) (fun inode finished => ?_)
  rw [fs]
  by_cases same : inode = file.inode
  · have nothing : bytes = [] := by
      by_contra some_
      exact clear some_ (same ▸ finished)
    rw [nothing, Fs.write, overwrite, if_pos rfl, same, Fs.setData_same]
  · exact Fs.setData_other _ same _

/-- A `.part` that is given up. -/
theorem Kept.removed (h : s.Kept) {plan : IoPlan} {path : String}
    (clear : path ∈ s.reported → plan.remove = false) (reported : s'.reported = s.reported)
    (fs : s'.fs = (diskOps plan).removeFile s.fs path) : s'.Kept := by
  refine h.frame reported (fun other known => ?_) (fun inode _ => ?_)
  · rw [fs]
    simp only [diskOps]
    split
    · rename_i removes
      refine Fs.remove_other _ ?_
      intro same
      rw [clear (same ▸ known)] at removes
      cases removes
    · rfl
  · rw [fs, removeFile_data]

/-- A `.part` that becomes a finished file, in the place of the one of the same name. -/
theorem Kept.renamed (h : s.Kept) {old new : String} {d : FileStore} {inode : Nat}
    (clear : old ∈ s.reported → s.fs.names new = s.fs.names old)
    (renamed : s.fs.Renamed old new d inode) (fs : s'.fs = d)
    (reported : s'.reported = s.reported.insert new (Receiver.contents d new)) : s'.Kept := by
  intro path held known
  rw [reported] at known
  rw [fs]
  obtain ⟨rfl, rfl⟩ | ⟨ne, known⟩ := lookup_insert_cases known
  · refine ⟨?_, rfl⟩
    rw [Receiver.contents, renamed.after]
    rfl
  · obtain ⟨some_, same⟩ := h path held known
    have stays : d.names path = s.fs.names path := by
      by_cases part : path = old
      · have both := clear (part ▸ AList.lookup_isSome.mp (Option.isSome_of_mem known))
        rw [renamed.idle (both.trans renamed.before)]
      · exact renamed.same path part ne
    refine ⟨some_, ?_⟩
    rw [← same, Receiver.contents, Receiver.contents, stays, renamed.data]

theorem report_progress (fs : FileStore) (reported : AList fun _ : String => Option Bytes)
    (id : String) (received size written : Nat) (due : Prop) [Decidable due] :
    report fs reported (.event (.progress id received size) ::
      if due then [.out (fileAck id written)] else []) = reported := by
  split <;> rfl

theorem kept_step (h : s.Kept) (met : Spares crypto s l)
    (stepped : (machine crypto dir).step s l = some s') : s'.Kept := by
  obtain ⟨p, plan⟩ := l
  obtain ⟨r, handled, rfl⟩ := Option.map_eq_some_iff.mp stepped
  obtain ⟨t', d', out⟩ := r
  have all := handle_cases handled
  cases all with
  | refused reason made =>
      obtain ⟨same, -⟩ := createDirAll_fs (watched_createDirAll made).1
      exact h.frame rfl (fun _ _ => by simp only [same]) (fun _ _ => by simp only [same])
  | unopened reason made opened =>
      obtain ⟨same, -⟩ := createDirAll_fs (watched_createDirAll made).1
      have same' := openWrite_refuses (watched_openWrite_error opened).1
      exact h.frame rfl (fun _ _ => by simp only [same', same])
        (fun _ _ => by simp only [same', same])
  | offered made opened starts =>
      rename_i o d₁ d₂ file st
      obtain ⟨same, makes⟩ := createDirAll_fs (watched_createDirAll made).1
      obtain ⟨opens, opened⟩ := openWrite_opens (watched_openWrite opened).1
      rw [same] at opened
      refine h.offered (met (makes rfl) opens) opened rfl ?_
      simp only [resumeAt, watched, same]
  | ignored known =>
      exact h.frame rfl (fun _ _ => rfl) (fun _ _ => rfl)
  | gap known ahead =>
      exact h.frame rfl (fun _ _ => rfl) (fun _ _ => rfl)
  | torn known next wrote =>
      obtain ⟨wrote, -, -⟩ := writeAll_writes (watched_writeAll wrote).1
      refine h.wrote (fun some_ => met _ known next ?_) rfl wrote
      exact Nat.pos_of_ne_zero fun nothing => some_ (by rw [nothing, List.take_zero])
  | appended known next wrote =>
      rename_i c st file
      obtain ⟨wrote, -, -⟩ := writeAll_writes (watched_writeAll wrote).1
      refine h.wrote (fun some_ => met _ known next ?_) (report_progress ..) wrote
      exact Nat.pos_of_ne_zero fun nothing => some_ (by rw [nothing, List.take_zero])
  | rejected reason known bad =>
      refine h.removed (fun reported => ?_) rfl rfl
      have clear := met _ known reported
      rw [if_neg (fun both => bad.elim (· both.1) (· both.2))] at clear
      exact clear
  | unnamed reason known full digest renamed =>
      obtain ⟨same, -⟩ := rename_refuses (watched_rename renamed).1
      exact h.frame rfl (fun _ _ => by simp only [same]; rfl) (fun _ _ => by simp only [same]; rfl)
  | finished known full digest renamed =>
      obtain ⟨works, renamed⟩ := rename_names (watched_rename renamed).1
      obtain ⟨inode, renamed⟩ := Fs.rename_renamed _ renamed
      refine h.renamed (fun reported => ?_) renamed rfl rfl
      have clear := met _ known reported
      rw [if_pos ⟨full, digest⟩] at clear
      exact clear works
  | acked =>
      exact h.frame rfl (fun _ _ => rfl) (fun _ _ => rfl)
  | cancelled =>
      exact h.frame rfl (fun _ _ => rfl) (fun _ _ => rfl)

theorem kept_start (fs : FileStore) : (start dir fs).Kept := by
  intro path held known
  cases known

end

/-! ## Names that keep out of each other's way -/

/-- An offer that opens its `.part` finds it neither reported as completed nor in use by another
open transfer, under either name, and is not to end where another one is written. -/
def NamesApart (s : Downloads) (l : Payload × IoPlan) : Prop :=
  match l.1 with
  | .fileOffer o => l.2.createDirAll = none → l.2.openWrite = none →
    s.files.partPath o ∉ s.reported ∧
      ∀ id st, s.files.recvs.lookup id = some st → id ≠ o.transferId →
        st.partPath ≠ s.files.partPath o ∧ st.finalPath ≠ s.files.partPath o ∧
          s.files.finalPath o ≠ st.partPath
  | _ => True

/-- Each open transfer has its `.part` to itself, and it is no finished file. -/
structure Clear (s : Downloads) : Prop where
  single : s.fs.SingleNames
  opened : ∀ id st, s.files.recvs.lookup id = some st →
    s.fs.names st.partPath = some st.file.2.inode ∧ st.partPath ∉ s.reported
  apart : ∀ id id' st st', s.files.recvs.lookup id = some st →
    s.files.recvs.lookup id' = some st' → id ≠ id' →
      st.partPath ≠ st'.partPath ∧ st.finalPath ≠ st'.partPath

section
variable {crypto : Crypto} {dir : String} {s s' : Downloads} {l : Payload × IoPlan}

/-- Files with one name each are told apart by their names. -/
theorem Clear.not_finished (h : s.Clear) {path : String} {inode : Nat}
    (refers : s.fs.names path = some inode) (unreported : path ∉ s.reported) :
    ¬ s.Finished inode := by
  rintro ⟨e, member, refers'⟩
  have same : e.1 = path := h.single _ _ _ refers' refers
  have found := Option.isSome_of_mem (AList.mem_lookup_iff.mpr member)
  exact unreported (same ▸ AList.lookup_isSome.mp found)

/-- Then no finished file is touched. -/
theorem Clear.spares (h : s.Clear) (met : s.NamesApart l) : Spares crypto s l := by
  obtain ⟨p, plan⟩ := l
  cases p with
  | fileOffer o =>
      intro makes opens _ inode refers finished
      exact absurd finished (h.not_finished refers (met makes opens).1)
  | fileChunk c =>
      intro st known _ _
      obtain ⟨refers, unreported⟩ := h.opened _ st known
      exact h.not_finished refers unreported
  | fileComplete c =>
      intro st known reported
      exact absurd reported (h.opened _ st known).2
  | _ => trivial

/-- The transfers that stay open keep their `.part`s. -/
theorem Clear.keeps (h : s.Clear) (single : s'.fs.SingleNames)
    (stay : ∀ id st', s'.files.recvs.lookup id = some st' →
      ∃ st, s.files.recvs.lookup id = some st ∧
        (st'.partPath = st.partPath ∧ st'.finalPath = st.finalPath ∧
          st'.file.2.inode = st.file.2.inode) ∧
        s'.fs.names st.partPath = s.fs.names st.partPath ∧
          (st.partPath ∈ s'.reported → st.partPath ∈ s.reported)) : s'.Clear := by
  constructor
  · exact single
  · intro id st' known
    obtain ⟨st, before, ⟨part, -, inode⟩, names, reported⟩ := stay id st' known
    obtain ⟨refers, unreported⟩ := h.opened id st before
    rw [part, inode, names]
    exact ⟨refers, fun member => unreported (reported member)⟩
  · intro id id' st st' known known' ne
    obtain ⟨old, before, ⟨part, final, -⟩, -, -⟩ := stay id st known
    obtain ⟨old', before', ⟨part', -, -⟩, -, -⟩ := stay id' st' known'
    rw [part, final, part']
    exact h.apart id id' old old' before before' ne

/-- Nothing that counts changes. -/
theorem Clear.frame (h : s.Clear) (names : s'.fs.names = s.fs.names)
    (reported : s'.reported = s.reported)
    (recvs : ∀ id st, s'.files.recvs.lookup id = some st → s.files.recvs.lookup id = some st) :
    s'.Clear := by
  refine h.keeps (h.single.congr names) fun id st known => ?_
  exact ⟨st, recvs id st known, ⟨rfl, rfl, rfl⟩, congrFun names _, fun member => reported ▸ member⟩

/-- A transfer ends: its `.part` is gone, or has the name of the finished file. -/
theorem Clear.ends (h : s.Clear) {id : String} {st : RecvState (String × Handle)}
    (known : s.files.recvs.lookup id = some st) (recvs : s'.files.recvs = s.files.recvs.erase id)
    (single : s'.fs.SingleNames)
    (names : ∀ path, path ≠ st.partPath → path ≠ st.finalPath →
      s'.fs.names path = s.fs.names path)
    (reported : ∀ path, path ≠ st.finalPath → path ∈ s'.reported → path ∈ s.reported) :
    s'.Clear := by
  refine h.keeps single fun id' st' known' => ?_
  rw [recvs] at known'
  obtain ⟨ne, before⟩ := lookup_erase_some known'
  obtain ⟨part, final⟩ := h.apart id id' st st' known before ne.symm
  exact ⟨st', before, ⟨rfl, rfl, rfl⟩, names _ part.symm final.symm, reported _ final.symm⟩

/-- A chunk moves the handle of its transfer. -/
theorem Clear.moves (h : s.Clear) {id : String} {st st' : RecvState (String × Handle)}
    (known : s.files.recvs.lookup id = some st)
    (recvs : s'.files.recvs = s.files.recvs.insert id st')
    (same : st'.partPath = st.partPath ∧ st'.finalPath = st.finalPath ∧
      st'.file.2.inode = st.file.2.inode)
    (names : s'.fs.names = s.fs.names) (reported : s'.reported = s.reported) : s'.Clear := by
  refine h.keeps (h.single.congr names) fun id' st'' known' => ?_
  have kept : ∀ path, s'.fs.names path = s.fs.names path ∧
      (path ∈ s'.reported → path ∈ s.reported) :=
    fun path => ⟨congrFun names path, fun member => reported ▸ member⟩
  rw [recvs] at known'
  obtain ⟨rfl, rfl⟩ | ⟨-, before⟩ := lookup_insert_cases known'
  · exact ⟨st, known, same, kept st.partPath⟩
  · exact ⟨st'', before, ⟨rfl, rfl, rfl⟩, kept st''.partPath⟩

/-- An offer whose names are apart from all others opens one more `.part`. -/
theorem Clear.offers (h : s.Clear) {o : FileOffer} {d : FileStore} {file : Handle}
    {st : RecvState (String × Handle)}
    (unreported : s.files.partPath o ∉ s.reported)
    (apart : ∀ id st, s.files.recvs.lookup id = some st → id ≠ o.transferId →
      st.partPath ≠ s.files.partPath o ∧ st.finalPath ≠ s.files.partPath o ∧
        s.files.finalPath o ≠ st.partPath)
    (opened : s.fs.Opened (s.files.partPath o) d file) (names : s'.fs.names = d.names)
    (recvs : s'.files.recvs = s.files.recvs.insert o.transferId st)
    (starts : st.partPath = s.files.partPath o ∧ st.finalPath = s.files.finalPath o ∧
      st.file.2.inode = file.inode)
    (reported : s'.reported = s.reported) : s'.Clear := by
  obtain ⟨part, final, inode⟩ := starts
  constructor
  · exact (h.single.opened opened).congr names
  · intro id st' known
    rw [recvs] at known
    rw [names, reported]
    obtain ⟨-, rfl⟩ | ⟨ne, before⟩ := lookup_insert_cases known
    · rw [part, inode]
      exact ⟨opened.named, unreported⟩
    · rw [opened.same _ (apart id st' before ne).1]
      exact h.opened id st' before
  · intro id id' st₁ st₂ known known' ne
    rw [recvs] at known known'
    obtain ⟨rfl, rfl⟩ | ⟨other, before⟩ := lookup_insert_cases known
    · obtain ⟨same, -⟩ | ⟨other, before⟩ := lookup_insert_cases known'
      · exact absurd same.symm ne
      · obtain ⟨parts, -, finals⟩ := apart id' st₂ before other
        rw [part, final]
        exact ⟨parts.symm, finals⟩
    · obtain ⟨-, rfl⟩ | ⟨-, before'⟩ := lookup_insert_cases known'
      · obtain ⟨parts, finals, -⟩ := apart id st₁ before other
        rw [part]
        exact ⟨parts, finals⟩
      · exact h.apart id id' st₁ st₂ before before' ne

theorem clear_step (h : s.Clear) (met : s.NamesApart l)
    (stepped : (machine crypto dir).step s l = some s') : s'.Clear := by
  obtain ⟨p, plan⟩ := l
  obtain ⟨r, handled, rfl⟩ := Option.map_eq_some_iff.mp stepped
  obtain ⟨t', d', out⟩ := r
  have all := handle_cases handled
  cases all with
  | refused reason made =>
      obtain ⟨same, -⟩ := createDirAll_fs (watched_createDirAll made).1
      exact h.frame (by simp only [same]) rfl fun _ _ known => known
  | unopened reason made opened =>
      obtain ⟨same, -⟩ := createDirAll_fs (watched_createDirAll made).1
      have same' := openWrite_refuses (watched_openWrite_error opened).1
      exact h.frame (by simp only [same', same]) rfl fun _ _ known => known
  | offered made opened starts =>
      rename_i o d₁ d₂ file st
      obtain ⟨same, makes⟩ := createDirAll_fs (watched_createDirAll made).1
      obtain ⟨opens, opened⟩ := openWrite_opens (watched_openWrite opened).1
      rw [same] at opened
      obtain ⟨unreported, apart⟩ := met (makes rfl) opens
      refine h.offers unreported apart opened (setLen_names _) rfl ?_ rfl
      rw [starts]
      exact ⟨rfl, rfl, seekStart_inode d₂.1 _⟩
  | ignored known =>
      exact h.frame rfl rfl fun _ _ known => known
  | gap known ahead =>
      exact h.frame rfl rfl fun _ _ known => known
  | torn known next wrote =>
      obtain ⟨wrote, moved, -⟩ := writeAll_writes (watched_writeAll wrote).1
      exact h.moves known rfl ⟨rfl, rfl, by rw [moved]⟩ (by rw [wrote]; rfl) rfl
  | appended known next wrote =>
      obtain ⟨wrote, moved, -⟩ := writeAll_writes (watched_writeAll wrote).1
      refine h.moves known rfl ⟨rfl, rfl, ?_⟩ (by rw [wrote]; rfl) (report_progress ..)
      simp only [stored, moved]
  | rejected reason known bad =>
      rename_i c st
      refine h.ends known rfl ?_ (fun path part _ => ?_) fun path _ member => member
      · simp only [watched, diskOps]
        split
        · exact h.single.remove _
        · exact h.single
      · simp only [watched, diskOps]
        split
        · exact Fs.remove_other _ part
        · rfl
  | unnamed reason known full digest renamed =>
      obtain ⟨same, -⟩ := rename_refuses (watched_rename renamed).1
      exact h.frame (by simp only [same]; rfl) rfl fun _ _ known => (lookup_erase_some known).2
  | finished known full digest renamed =>
      rename_i c st
      obtain ⟨inode, renamed⟩ := Fs.rename_renamed _ (rename_names (watched_rename renamed).1).2
      refine h.ends known rfl (h.single.renamed renamed) renamed.same fun path ne member => ?_
      exact (AList.mem_insert _).mp member |>.resolve_left ne
  | acked =>
      refine h.frame rfl rfl fun id st known => ?_
      rwa [onAck_recvs] at known
  | cancelled =>
      rename_i c
      refine h.frame rfl rfl fun id st known => ?_
      rw [onCancel_recvs] at known
      exact (lookup_erase_some known).2

/-- From a directory whose files have one name each, names that are apart keep the finished
files. -/
theorem clear_run {fs : FileStore} (single : fs.SingleNames)
    (run : ((machine crypto dir).startingAt (start dir fs)).ReachableBy NamesApart s) :
    s.Clear ∧ s.Kept := by
  refine run.invariant (I := fun s => s.Clear ∧ s.Kept) ?_ ?_
  · rintro s rfl
    refine ⟨⟨single, fun id st known => ?_, fun id id' st st' known => ?_⟩, kept_start fs⟩
    · cases known
    · cases known
  · rintro s l s' ⟨clear, kept⟩ met stepped
    have moved : (machine crypto dir).step s l = some s' := stepped
    exact ⟨clear_step clear met moved, kept_step kept (clear.spares met) moved⟩

end

/-- Every call keeps to the download directory, and finished files are kept as long as no
transfer has one of them for its `.part`: so it is where the names that are offered are apart. -/
theorem confined_and_kept (crypto : Crypto) (dir : String) :
    (∀ s, (machine crypto dir).Reachable s → s.Within dir) ∧
      (∀ s, (machine crypto dir).ReachableBy (Spares crypto) s → s.Kept) ∧
        ∀ fs : FileStore, fs.SingleNames → ∀ s,
          ((machine crypto dir).startingAt (start dir fs)).ReachableBy NamesApart s → s.Kept := by
  refine ⟨fun s run => (within_run run).2, fun s run => ?_,
    fun fs single s run => (clear_run single run).2⟩
  refine run.invariant (fun s first => ?_) fun s l s' kept met stepped => kept_step kept met stepped
  obtain ⟨fs, rfl⟩ := first
  exact kept_start fs

instance (s : Downloads) (plan : IoPlan) (o : FileOffer) : Decidable (s.OffersClear plan o) :=
  inferInstanceAs (Decidable (_ → _ → _ → ∀ _, _ = _ → _))

instance (s : Downloads) (plan : IoPlan) (c : FileChunk) : Decidable (s.WritesClear plan c) :=
  inferInstanceAs (Decidable (∀ _, _ = _ → _))

instance (crypto : Crypto) (s : Downloads) (plan : IoPlan) (c : FileComplete) :
    Decidable (s.EndsClear crypto plan c) :=
  inferInstanceAs (Decidable (∀ _, _ = _ → _))

instance (crypto : Crypto) (s : Downloads) : ∀ l, Decidable (Spares crypto s l)
  | (.fileOffer o, plan) => inferInstanceAs (Decidable (s.OffersClear plan o))
  | (.fileChunk c, plan) => inferInstanceAs (Decidable (s.WritesClear plan c))
  | (.fileComplete c, plan) => inferInstanceAs (Decidable (s.EndsClear crypto plan c))
  | (.fileAck _, _) | (.fileCancel _, _) | (.hello _, _) | (.helloAck _, _) | (.input _, _)
  | (.ping _, _) | (.pong _, _) | (.bye _, _) | (.clipboard _, _) | (.displayList _, _)
  | (.selectDisplay _, _) | (.requestKeyframe, _) | (.viewOnly _, _) | (.audio _ _, _)
  | (.setZoom _, _) => .isTrue trivial

instance (s : Downloads) : ∀ l, Decidable (s.NamesApart l)
  | (.fileOffer _, _) => inferInstanceAs (Decidable (_ → _ → _ ∧ ∀ _ _, _ → _))
  | (.fileChunk _, _) | (.fileComplete _, _) | (.fileAck _, _) | (.fileCancel _, _) | (.hello _, _)
  | (.helloAck _, _) | (.input _, _) | (.ping _, _) | (.pong _, _) | (.bye _, _)
  | (.clipboard _, _) | (.displayList _, _) | (.selectDisplay _, _) | (.requestKeyframe, _)
  | (.viewOnly _, _) | (.audio _ _, _) | (.setZoom _, _) => .isTrue trivial

/-- A file of one byte, then another one of its name. -/
def sampleTwice : List (Payload × IoPlan) :=
  [Receiver.sampleOffer "x" "../a" 1, Receiver.sampleChunk "x" 0 [1],
    Receiver.sampleComplete "x" [1], Receiver.sampleOffer "y" "a." 1,
    Receiver.sampleChunk "y" 0 [2], Receiver.sampleComplete "y" [2]]

/-- A finished file is replaced by the next one of its name. -/
theorem confined_and_kept_twice :
    (∃ s, (machine sampleCrypto "dl").ReachableBy (Spares sampleCrypto) s ∧
      s.reported.entries = [⟨"dl/a", some [2]⟩] ∧ s.Kept ∧ s.Within "dl") ∧
    ∃ s, ((machine sampleCrypto "dl").startingAt
        (start "dl" Receiver.emptyStore)).ReachableBy NamesApart s ∧
      s.reported.entries = [⟨"dl/a", some [2]⟩] ∧ s.Kept := by
  obtain ⟨within, spared, apart⟩ := confined_and_kept sampleCrypto "dl"
  constructor
  · obtain ⟨s, run, reported⟩ := (machine sampleCrypto "dl").exists_reachableBy
      (Spares sampleCrypto) ⟨Receiver.emptyStore, rfl⟩ sampleTwice
      (fun s => s.reported.entries = [⟨"dl/a", some [2]⟩]) (by decide)
    exact ⟨s, run, reported, spared s run, within s (run.mono fun _ _ _ => trivial)⟩
  · obtain ⟨s, run, reported⟩ := ((machine sampleCrypto "dl").startingAt
      (start "dl" Receiver.emptyStore)).exists_reachableBy NamesApart rfl sampleTwice
      (fun s => s.reported.entries = [⟨"dl/a", some [2]⟩]) (by decide)
    refine ⟨s, run, reported, apart Receiver.emptyStore ?_ s run⟩
    intro name name' inode refers
    cases refers

/-- A finished file named `a.part` is cut by an offer of `a`. -/
theorem finished_part_is_cut :
    ∃ s, (machine sampleCrypto "dl").Reachable s ∧ ¬ s.Kept :=
  (machine sampleCrypto "dl").exists_reachableBy Machine.Always ⟨Receiver.emptyStore, rfl⟩
    [Receiver.sampleOffer "x" "a.part" 1, Receiver.sampleChunk "x" 0 [1],
      Receiver.sampleComplete "x" [1], Receiver.sampleOffer "y" "a" 0]
    (fun s => ¬ s.Kept) (by decide)

end Downloads
end ReachMyDevice
