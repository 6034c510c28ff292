import ReachMyDevice.FileHandling
import ReachMyDevice.FileEvents
import ReachMyDevice.FilePair

/-!
# Transfers that run side by side

A step that is about one transfer leaves the others alone, in both directions, as
long as its id is in use in one direction only and no other transfer's `.part` is
removed, renamed or replaced.
-/
namespace ReachMyDevice
open Machines FileSystem Exchanges

namespace FileNode
open FileTransfers

/-- An inbound transfer, with what its `.part` refers to and what it has stored. -/
def inbound (n : FileNode) (id : String) : Option (RecvState Handle × Option Nat × Bytes) :=
  (n.files.recvs.lookup id).map fun st => (st, n.fs.names st.partPath, n.fs.data st.file.inode)

/-- An outbound transfer, with the cell that its thread reads. -/
def outbound (n : FileNode) (id : String) : Option (Nat × Option SendShared) :=
  (n.files.sends.lookup id).map fun cell => (cell, n.files.shared[cell]?)

/-- Only the transfer of this id changes, and in one direction. -/
structure SparesOthers (n n' : FileNode) (id : String) : Prop where
  inbound : ∀ other, other ≠ id → n'.inbound other = n.inbound other
  outbound : ∀ other, other ≠ id → n'.outbound other = n.outbound other
  threads : ∀ (j : Nat) (t : SendThread), t.transferId ≠ id →
    (n'.threads[j]? = some t ↔ n.threads[j]? = some t)
  events : ∀ ev, ev.transferId ≠ id → ev ∈ n'.events → ev ∈ n.events
  oneWay : n'.inbound id = n.inbound id ∨ n'.outbound id = n.outbound id ∧ n'.threads = n.threads

/-- The transfer that a cancellation, an acknowledgement, a completion or a sending thread is
about. -/
def subject (n : FileNode) : FileAct → Option String
  | .cancel id _ => some id
  | .handle (.fileCancel c) _ => some c.transferId
  | .handle (.fileAck a) _ => some a.transferId
  | .handle (.fileComplete c) _ => some c.transferId
  | .thread i _ => n.threads[i]?.map (·.transferId)
  | _ => none

/-- The id is not in use in both directions. -/
def OneWay (n : FileNode) (id : String) : Prop :=
  n.files.recvs.lookup id = none ∨ n.files.sends.lookup id = none

/-- No other open transfer has one of these paths for its `.part`. -/
def Unshared (n : FileNode) (id : String) (paths : List String) : Prop :=
  ∀ other st, n.files.recvs.lookup other = some st → other ≠ id → st.partPath ∉ paths

/-- A cancelled id is in use in one direction, and a `.part` that a completion removes or renames,
and the name it gets, are no other transfer's. -/
def Spares (crypto : Crypto) (n : FileNode) : FileAct → Prop
  | .cancel id _ => n.OneWay id
  | .handle (.fileCancel c) _ => n.OneWay c.transferId
  | .handle (.fileComplete c) plan =>
    ∀ st, n.files.recvs.lookup c.transferId = some st →
      ∀ inode, n.fs.names st.partPath = some inode →
        if st.written = st.size ∧ crypto.sha256 st.hasher = c.sha256 then
          plan.rename = none → n.fs.names st.finalPath ≠ some inode →
            n.Unshared c.transferId [st.partPath, st.finalPath]
        else plan.remove = true → n.Unshared c.transferId [st.partPath]
  | _ => True

/-- Every open send has a cell of its own. -/
structure CellsApart (n : FileNode) : Prop where
  inside : ∀ id cell, n.files.sends.lookup id = some cell → cell < n.files.shared.length
  apart : ∀ id id' cell, n.files.sends.lookup id = some cell →
    n.files.sends.lookup id' = some cell → id = id'

theorem cellsApart_start (dir : String) (fs : FileStore) : (start dir fs).CellsApart := by
  constructor
  · intro id cell known
    cases known
  · intro id id' cell known
    cases known

/-- Fewer sends over as many cells. -/
theorem CellsApart.fewer {n n' : FileNode} (h : n.CellsApart)
    (sends : ∀ id cell, n'.files.sends.lookup id = some cell → n.files.sends.lookup id = some cell)
    (shared : n'.files.shared.length = n.files.shared.length) : n'.CellsApart := by
  constructor
  · intro id cell known
    rw [shared]
    exact h.inside id cell (sends id cell known)
  · intro id id' cell known known'
    exact h.apart id id' cell (sends id cell known) (sends id' cell known')

theorem CellsApart.step {crypto : Crypto} {n n' : FileNode} {act : FileAct} {envs : List Envelope}
    (h : n.CellsApart) (stepped : n.step crypto act = some (n', envs)) : n'.CellsApart := by
  cases act with
  | sendFile path size spawned =>
      cases stepped
      constructor
      · intro id cell known
        simp only [openSend, List.length_append, List.length_singleton] at known ⊢
        obtain ⟨-, rfl⟩ | ⟨-, known⟩ := lookup_insert_cases known
        · exact Nat.lt_succ_self _
        · exact Nat.lt_succ_of_lt (h.inside id cell known)
      · intro id id' cell known known'
        obtain ⟨rfl, rfl⟩ | ⟨-, known⟩ := lookup_insert_cases known
        · obtain ⟨rfl, -⟩ | ⟨-, known'⟩ := lookup_insert_cases known'
          · rfl
          · exact absurd (h.inside _ _ known') (Nat.lt_irrefl _)
        · obtain ⟨rfl, rfl⟩ | ⟨-, known'⟩ := lookup_insert_cases known'
          · exact absurd (h.inside _ _ known) (Nat.lt_irrefl _)
          · exact h.apart id id' cell known known'
  | cancel id reason =>
      cases stepped
      exact h.fewer (fun _ _ known => (lookup_erase_some known).2) (onCancel_length ..)
  | thread i act =>
      obtain ⟨t, cell, phase, out, -, -, -, same⟩ := runThread_cases stepped
      cases same
      exact h.fewer (fun _ _ known => known) rfl
  | handle p plan =>
      obtain ⟨t', d', out, handled, same⟩ := handled_of_step stepped
      cases same
      cases handle_cases handled with
      | acked =>
          refine h.fewer (fun id cell known => ?_) (onAck_length ..)
          rw [← onAck_sends]
          exact known
      | cancelled => exact h.fewer (fun _ _ known => (lookup_erase_some known).2) (onCancel_length ..)
      | _ => exact h.fewer (fun _ _ known => known) rfl

section
variable {n : FileNode} {id other : String}

theorem inbound_eq_none : n.inbound id = none ↔ n.files.recvs.lookup id = none := Option.map_eq_none_iff

theorem outbound_eq_none : n.outbound id = none ↔ n.files.sends.lookup id = none := Option.map_eq_none_iff

/-- Dropping a transfer leaves the others alone; it leaves one direction alone if and only if the
id is in use in one direction. -/
theorem sparesOthers_drop (h : n.CellsApart) (c : FileCancel) {events : List FileEvent}
    (own : ∀ ev, ev.transferId ≠ c.transferId → ev ∈ events → ev ∈ n.events) :
    SparesOthers n { n with files := (n.files.onCancel c).1, events := events } c.transferId ↔
      n.OneWay c.transferId := by
  have dropped : FileNode.inbound { n with files := (n.files.onCancel c).1, events := events }
      c.transferId = none := inbound_eq_none.mpr (AList.lookup_erase ..)
  have closed : FileNode.outbound { n with files := (n.files.onCancel c).1, events := events }
      c.transferId = none := outbound_eq_none.mpr (AList.lookup_erase ..)
  constructor
  · intro spares
    obtain same | ⟨same, -⟩ := spares.oneWay
    · exact .inl (inbound_eq_none.mp (same.symm.trans dropped))
    · exact .inr (outbound_eq_none.mp (same.symm.trans closed))
  · intro oneWay
    refine ⟨fun other ne => ?_, fun other ne => ?_, fun _ _ _ => Iff.rfl, own, ?_⟩
    · simp only [FileNode.inbound, onCancel_recvs, AList.lookup_erase_ne ne]
    · simp only [FileNode.outbound, onCancel_sends, AList.lookup_erase_ne ne]
      cases known : n.files.sends.lookup other with
      | none => rfl
      | some cell =>
          have apart : n.files.sends.lookup c.transferId ≠ some cell := by
            intro same
            exact ne (h.apart other c.transferId cell known same)
          simp only [Option.map_some, onCancel_shared, if_neg apart, Option.map_id']
    · obtain nothing | nothing := oneWay
      · exact .inl (dropped.trans (inbound_eq_none.mpr nothing).symm)
      · exact .inr ⟨closed.trans (outbound_eq_none.mpr nothing).symm, rfl⟩

theorem sparesOthers_ack (h : n.CellsApart) (a : FileAck) :
    SparesOthers n { n with files := n.files.onAck a } a.transferId := by
  have recvs := onAck_recvs n.files a
  refine ⟨fun other ne => ?_, fun other ne => ?_, fun _ _ _ => Iff.rfl, fun _ _ member => member,
    .inl ?_⟩
  · simp only [FileNode.inbound, recvs]
  · simp only [FileNode.outbound, onAck_sends]
    cases known : n.files.sends.lookup other with
    | none => rfl
    | some cell =>
        have apart : n.files.sends.lookup a.transferId ≠ some cell := by
          intro same
          exact ne (h.apart other a.transferId cell known same)
        simp only [Option.map_some, onAck_shared, if_neg apart, Option.map_id']
  · simp only [FileNode.inbound, recvs]

/-- A finished transfer leaves the others alone if and only if their `.part`s keep their names. -/
theorem sparesOthers_finish {fs : FileStore} {events : List FileEvent} (data : fs.data = n.fs.data)
    (own : ∀ ev, ev.transferId ≠ id → ev ∈ events → ev ∈ n.events) :
    SparesOthers n { n with
        files := { n.files with recvs := n.files.recvs.erase id }, fs := fs, events := events } id ↔
      ∀ other st, n.files.recvs.lookup other = some st → other ≠ id →
        fs.names st.partPath = n.fs.names st.partPath := by
  constructor
  · intro spares other st known ne
    have same := spares.inbound other ne
    simp only [FileNode.inbound, AList.lookup_erase_ne ne, known, Option.map_some,
      Option.some.injEq, Prod.mk.injEq] at same
    exact same.2.1
  · intro names
    refine ⟨fun other ne => ?_, fun _ _ => rfl, fun _ _ _ => Iff.rfl, own, .inr ⟨rfl, rfl⟩⟩
    simp only [FileNode.inbound, AList.lookup_erase_ne ne, data]
    cases known : n.files.recvs.lookup other with
    | none => rfl
    | some st => simp only [Option.map_some, names other st known ne]

theorem sparesOthers_thread {i : Nat} {t : SendThread} {phase : SendPhase} {events : List FileEvent}
    (member : n.threads[i]? = some t)
    (own : ∀ ev, ev.transferId ≠ t.transferId → ev ∈ events → ev ∈ n.events) :
    SparesOthers n { n with threads := n.threads.set i { t with phase := phase }, events := events }
      t.transferId := by
  refine ⟨fun _ _ => rfl, fun _ _ => rfl, fun j t' ne => ?_, own, .inl rfl⟩
  constructor
  · intro listed
    obtain ⟨-, rfl⟩ | ⟨-, listed⟩ := Slots.getElem?_set_cases listed
    · exact absurd rfl ne
    · exact listed
  · intro listed
    have other : i ≠ j := by
      rintro rfl
      rw [member, Option.some.injEq] at listed
      exact ne (congrArg SendThread.transferId listed.symm)
    simp only [List.getElem?_set_ne other]
    exact listed

/-- A removal takes no other transfer's `.part` if and only if none has this path. -/
theorem removeFile_spares {plan : IoPlan} {path : String} {inode : Nat}
    (named : n.fs.names path = some inode) :
    (∀ other st, n.files.recvs.lookup other = some st → other ≠ id →
        ((diskOps plan).removeFile n.fs path).names st.partPath = n.fs.names st.partPath) ↔
      (plan.remove = true → n.Unshared id [path]) := by
  simp only [diskOps, Unshared, List.mem_singleton]
  constructor
  · intro kept works other st known ne same
    have gone := kept other st known ne
    rw [if_pos works, same, named] at gone
    exact absurd ((Function.update_self ..).symm.trans gone) (by simp)
  · intro unshared other st known ne
    split
    · rename_i works
      exact Fs.remove_other _ (unshared works other st known ne)
    · rfl

/-- A renaming that changes anything takes no other transfer's `.part` if and only if none has one
of the paths. -/
theorem renamed_spares {old new : String} {fs : FileStore} {inode : Nat}
    (renamed : n.fs.Renamed old new fs inode) :
    (∀ other st, n.files.recvs.lookup other = some st → other ≠ id →
        fs.names st.partPath = n.fs.names st.partPath) ↔
      (n.fs.names new ≠ some inode → n.Unshared id [old, new]) := by
  simp only [Unshared, List.mem_cons, List.not_mem_nil, or_false, not_or]
  constructor
  · intro kept changes other st known ne
    have same := kept other st known ne
    refine ⟨fun first => ?_, fun second => ?_⟩
    · rw [first, renamed.gone changes, renamed.before] at same
      cases same
    · rw [second, renamed.after] at same
      exact changes same.symm
  · intro unshared other st known ne
    by_cases changes : n.fs.names new = some inode
    · rw [renamed.idle changes]
    · obtain ⟨first, second⟩ := unshared changes other st known ne
      exact renamed.same _ first second

/-- A report on the transfer is no report on another one. -/
theorem own_concat {events : List FileEvent} {ev : FileEvent} (about : ev.transferId = id) :
    ∀ ev', ev'.transferId ≠ id → ev' ∈ events ++ [ev] → ev' ∈ events := by
  intro ev' ne member
  obtain earlier | now := List.mem_append.mp member
  · exact earlier
  · rw [List.mem_singleton.mp now] at ne
    exact absurd about ne

/-- A `FileComplete` for an open transfer. -/
theorem complete_spares_iff {crypto : Crypto} {plan : IoPlan} {c : FileComplete}
    {st : RecvState Handle} (known : n.files.recvs.lookup c.transferId = some st) :
    n.Spares crypto (.handle (.fileComplete c) plan) ↔
      ∀ inode, n.fs.names st.partPath = some inode →
        if st.written = st.size ∧ crypto.sha256 st.hasher = c.sha256 then
          plan.rename = none → n.fs.names st.finalPath ≠ some inode →
            n.Unshared c.transferId [st.partPath, st.finalPath]
        else plan.remove = true → n.Unshared c.transferId [st.partPath] := by
  constructor
  · intro spares
    exact spares st known
  · intro spares st' known'
    rw [known, Option.some.injEq] at known'
    exact known' ▸ spares

theorem spares_iff {crypto : Crypto} {n' : FileNode} {act : FileAct} {envs : List Envelope}
    (h : n.CellsApart) (stepped : n.step crypto act = some (n', envs))
    (about : n.subject act = some id) : SparesOthers n n' id ↔ n.Spares crypto act := by
  cases act with
  | sendFile path size spawned => cases about
  | cancel id' reason =>
      cases about
      cases stepped
      simp only [FileTransfers.cancel, List.filterMap_cons, FileOut.event?,
        List.filterMap_nil, List.append_nil]
      exact sparesOthers_drop h { transferId := id, reason } fun _ _ member => member
  | thread i act =>
      obtain ⟨t, cell, phase, out, member, -, acted, same⟩ := runThread_cases stepped
      rw [show n' = _ from congrArg Prod.fst same]
      simp only [subject, member, Option.map_some, Option.some.injEq] at about
      subst about
      refine iff_of_true (sparesOthers_thread member ?_) trivial
      intro ev ne listed
      obtain earlier | now := List.mem_append.mp listed
      · exact earlier
      · cases acted <;> simp_all [FileOut.event?, FileEvent.transferId]
  | handle p plan =>
      obtain ⟨t', d', out, handled, same⟩ := handled_of_step stepped
      rw [show n' = _ from congrArg Prod.fst same]
      cases handle_cases handled with
      | refused => cases about
      | unopened => cases about
      | offered => cases about
      | gap => cases about
      | torn => cases about
      | appended => cases about
      | ignored known =>
          obtain ⟨c, rfl, -⟩ | ⟨c, rfl, unknown⟩ := known
          · cases about
          · cases about
            simp only [emit, List.filterMap_nil, List.append_nil]
            refine iff_of_true ⟨fun _ _ => rfl, fun _ _ => rfl, fun _ _ _ => Iff.rfl,
              fun _ _ member => member, .inl rfl⟩ fun st known => ?_
            rw [unknown] at known
            cases known
      | rejected reason known bad =>
          cases about
          rw [complete_spares_iff known]
          refine (sparesOthers_finish ?_ ?_).trans ?_
          · exact removeFile_data _
          · exact own_concat rfl
          cases named : n.fs.names _ with
          | none =>
              refine iff_of_true (fun other st _ _ => ?_) fun inode found => by cases found
              exact congrFun (removeFile_idle named) _
          | some inode =>
              have fails : ¬ (_ = _ ∧ _ = _) := not_and_or.mpr bad
              simp only [Option.some.injEq, forall_eq', if_neg fails]
              exact removeFile_spares named
      | unnamed reason known full digest renamed =>
          cases about
          obtain ⟨rfl, idle⟩ := rename_refuses renamed
          rw [complete_spares_iff known]
          refine (sparesOthers_finish ?_ ?_).trans ?_
          · rfl
          · exact own_concat rfl
          refine iff_of_true (fun _ _ _ _ => rfl) fun inode named => ?_
          rw [if_pos ⟨full, digest⟩]
          intro works
          exact absurd (named.symm.trans (idle works)) (by simp)
      | finished known full digest renamed =>
          cases about
          obtain ⟨works, renamed⟩ := rename_names renamed
          obtain ⟨inode, renamed⟩ := Fs.rename_renamed _ renamed
          rw [complete_spares_iff known]
          refine (sparesOthers_finish ?_ ?_).trans ?_
          · exact renamed.data
          · exact own_concat rfl
          rw [show n.fs.names _ = some inode from renamed.before]
          simp only [Option.some.injEq, forall_eq', if_pos (And.intro full digest)]
          exact (renamed_spares renamed).trans ⟨fun unshared _ => unshared, fun unshared => unshared works⟩
      | acked =>
          cases about
          simp only [emit, List.filterMap_nil, List.append_nil]
          exact iff_of_true (sparesOthers_ack h _) trivial
      | cancelled =>
          cases about
          exact sparesOthers_drop h _ (own_concat rfl)

end

end FileNode

namespace FilePair
open FileNode

theorem cellsApart {crypto : Crypto} {s : FilePair} (run : (machine crypto).Reachable s)
    (side : Side) : (s.node side).CellsApart :=
  nodes_invariant cellsApart_start (fun _ _ _ _ h moved => CellsApart.step h moved) run side

theorem transfers_independent (crypto : Crypto) {s s' : FilePair} {l : PairAct} {side : Side}
    {act : FileAct} {id : String} (run : (machine crypto).Reachable s)
    (stepped : (machine crypto).step s l = some s') (acts : s.acts l = some (side, act))
    (about : (s.node side).subject act = some id) :
    (s'.node side.other = s.node side.other ∧ SparesOthers (s.node side) (s'.node side) id) ↔
      (s.node side).Spares crypto act := by
  obtain ⟨side', act', n, envs, acts', moved, same⟩ := step_node stepped
  rw [acts, Option.some.injEq, Prod.mk.injEq] at acts'
  obtain ⟨rfl, rfl⟩ := acts'
  have other : side.other ≠ side := by
    cases side <;> exact fun same => by cases same
  rw [same, Function.update_self, Function.update_of_ne other]
  exact (and_iff_right rfl).trans (spares_iff (cellsApart run side) moved about)

/-- Both sides send a file, and both offers have arrived. -/
def bothSend (first second : String) : List PairAct :=
  [.sendFile .a first 1 true, .sendFile .b second 1 true, .deliver .a .reliable, .deliver .b .reliable]

theorem transfers_independent_names : ∃ s s', (machine sampleCrypto).Reachable s ∧
    (machine sampleCrypto).step s (.cancel .a "tx-1-f" "stop") = some s' ∧
      (s.node .a).outbound "tx-1-f" ≠ none ∧ (s.node .a).inbound "tx-1-g" ≠ none ∧
        s'.node .b = s.node .b ∧ SparesOthers (s.node .a) (s'.node .a) "tx-1-f" := by
  obtain ⟨s, run, sends, recvs, oneWay⟩ := (machine sampleCrypto).exists_reachableBy Machine.Always
    ⟨fun _ => "dl", fun _ => Receiver.emptyStore, rfl⟩ (bothSend "f" "g")
    (fun s => (s.node .a).files.sends.lookup "tx-1-f" ≠ none ∧
      (s.node .a).files.recvs.lookup "tx-1-g" ≠ none ∧
        (s.node .a).files.recvs.lookup "tx-1-f" = none) (by decide)
  have acts : s.acts (.cancel .a "tx-1-f" "stop") = some (.a, .cancel "tx-1-f" "stop") := rfl
  have spares : (s.node .a).Spares sampleCrypto (.cancel "tx-1-f" "stop") := Or.inl oneWay
  refine ⟨s, _, run, rfl, mt outbound_eq_none.mp sends, mt inbound_eq_none.mp recvs, ?_⟩
  exact (transfers_independent sampleCrypto run rfl acts rfl).mpr spares

/-- Two files of one name get one id: cancelling the one that is sent drops the one that is
received. -/
theorem cancel_drops_both : ∃ s s', (machine sampleCrypto).Reachable s ∧
    (machine sampleCrypto).step s (.cancel .a "tx-1-f" "stop") = some s' ∧
      ¬ SparesOthers (s.node .a) (s'.node .a) "tx-1-f" := by
  obtain ⟨s, run, sends, recvs⟩ := (machine sampleCrypto).exists_reachableBy Machine.Always
    ⟨fun _ => "dl", fun _ => Receiver.emptyStore, rfl⟩ (bothSend "f" "f")
    (fun s => (s.node .a).files.sends.lookup "tx-1-f" ≠ none ∧
      (s.node .a).files.recvs.lookup "tx-1-f" ≠ none) (by decide)
  refine ⟨s, _, run, rfl, fun spares => ?_⟩
  have moved : (s.node .a).step sampleCrypto (.cancel "tx-1-f" "stop") = some _ := rfl
  have oneWay : (s.node .a).OneWay "tx-1-f" := (spares_iff (cellsApart run .a) moved rfl).mp spares
  obtain nothing | nothing := oneWay
  · exact recvs nothing
  · exact sends nothing

end FilePair
end ReachMyDevice
