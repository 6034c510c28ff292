import ReachMyDevice.FileTransfers

/-!
# What the handling of one file-transfer envelope can do

Every property of the receiving side is derived from `handle_cases`.
-/
namespace ReachMyDevice
namespace FileTransfers
variable {D H : Type}

def finalPath (t : FileTransfers H) (o : FileOffer) : String := join t.downloadDir (sanitize o.name)

def partPath (t : FileTransfers H) (o : FileOffer) : String := withExt (t.finalPath o) "part"

/-- Where an offered transfer goes on. -/
def resumeAt (disk : DiskOps D H) (t : FileTransfers H) (d : D) (o : FileOffer) : Nat :=
  min ((disk.metadataLen d (t.partPath o)).getD 0) o.size

/-- What the hasher has absorbed of the existing `.part`. -/
def rehashed (disk : DiskOps D H) (t : FileTransfers H) (d : D) (o : FileOffer) : Bytes :=
  if 0 < t.resumeAt disk d o then
    match disk.openRead d (t.partPath o) with
    | none => []
    | some f => rehash disk d (t.resumeAt disk d o) f (t.resumeAt disk d o) []
  else []

/-- The state a transfer starts in. -/
def admitted (disk : DiskOps D H) (t : FileTransfers H) (d : D) (o : FileOffer) (file : H) :
    RecvState H where
  file := file
  partPath := t.partPath o
  finalPath := t.finalPath o
  written := t.resumeAt disk d o
  size := o.size
  lastAck := t.resumeAt disk d o
  hasher := t.rehashed disk d o

/-- Whether a transfer that has come this far is acknowledged. -/
def due (st : RecvState H) (written : Nat) : Prop :=
  ackEvery ≤ written - st.lastAck ∨ written = st.size

instance (st : RecvState H) (written : Nat) : Decidable (due st written) :=
  inferInstanceAs (Decidable (_ ∨ _))

/-- The state of a transfer once a chunk is stored. -/
def stored (st : RecvState H) (file : H) (data : Bytes) : RecvState H :=
  { st with
    file := file
    written := st.written + data.length
    hasher := st.hasher ++ data
    lastAck := if due st (st.written + data.length) then st.written + data.length else st.lastAck }

scoped instance {α : Type} (m : AList fun _ : String => α) (P : String → α → Prop)
    [∀ id a, Decidable (P id a)] : Decidable (∀ id a, m.lookup id = some a → P id a) :=
  decidable_of_iff (∀ e, e ∈ m.entries → P e.1 e.2) (by
    constructor
    · intro all id a known
      exact all ⟨id, a⟩ (AList.mem_lookup_iff.mp known)
    · intro all e member
      exact all e.1 e.2 (AList.mem_lookup_iff.mpr member))

scoped instance {α : Type} (o : Option α) (P : α → Prop) [DecidablePred P] :
    Decidable (∀ a, o = some a → P a) :=
  inferInstanceAs (Decidable (∀ a, a ∈ o → P a))

theorem lookup_insert_cases {α : Type} {m : AList fun _ : String => α} {id id' : String} {a b : α}
    (h : (m.insert id a).lookup id' = some b) : id' = id ∧ b = a ∨ id' ≠ id ∧ m.lookup id' = some b := by
  by_cases same : id' = id
  · rw [same, AList.lookup_insert, Option.some.injEq] at h
    exact .inl ⟨same, h.symm⟩
  · rw [AList.lookup_insert_ne same] at h
    exact .inr ⟨same, h⟩

theorem lookup_erase_some {α : Type} {m : AList fun _ : String => α} {id id' : String} {b : α}
    (h : (m.erase id).lookup id' = some b) : id' ≠ id ∧ m.lookup id' = some b := by
  by_cases same : id' = id
  · rw [same, AList.lookup_erase] at h
    cases h
  · rw [AList.lookup_erase_ne same] at h
    exact ⟨same, h⟩

theorem onAck_recvs (t : FileTransfers H) (a : FileAck) : (t.onAck a).recvs = t.recvs := by
  simp only [onAck]
  split <;> rfl

/-- All that one envelope does. -/
inductive Handled (crypto : Crypto) (disk : DiskOps D H) (t : FileTransfers H) (d : D) :
    Payload → FileTransfers H → D → List FileOut → Prop
  | refused {o : FileOffer} {d₁ : D} (reason : String)
      (made : disk.createDirAll d t.downloadDir = (d₁, .error reason)) :
      Handled crypto disk t d (.fileOffer o) t d₁ [fail o.transferId ("mkdir: " ++ reason)]
  | unopened {o : FileOffer} {d₁ d₂ : D} (reason : String)
      (made : disk.createDirAll d t.downloadDir = (d₁, .ok ()))
      (opened : disk.openWrite d₁ (t.partPath o) = (d₂, .error reason)) :
      Handled crypto disk t d (.fileOffer o) t d₂ [fail o.transferId ("open .part: " ++ reason)]
  | offered {o : FileOffer} {d₁ d₂ : D} {file : H}
      (made : disk.createDirAll d t.downloadDir = (d₁, .ok ()))
      (opened : disk.openWrite d₁ (t.partPath o) = (d₂, .ok file)) {st : RecvState H}
      (starts : st = t.admitted disk d₁ o (disk.seekStart
        (disk.setLen d₂ file (t.resumeAt disk d₁ o)) file (t.resumeAt disk d₁ o))) :
      Handled crypto disk t d (.fileOffer o) { t with recvs := t.recvs.insert o.transferId st }
        (disk.setLen d₂ file (t.resumeAt disk d₁ o))
        [.event (.offered o.transferId o.name o.size), .out (fileAck o.transferId st.written)]
  /-- Nothing to do: the transfer is not known, or the chunk was stored before. -/
  | ignored {p : Payload} (known : (∃ c, p = .fileChunk c ∧
        ∀ st, t.recvs.lookup c.transferId = some st → c.offset < st.written) ∨
      ∃ c, p = .fileComplete c ∧ t.recvs.lookup c.transferId = none) :
      Handled crypto disk t d p t d []
  | gap {c : FileChunk} {st : RecvState H} (known : t.recvs.lookup c.transferId = some st)
      (ahead : st.written < c.offset) :
      Handled crypto disk t d (.fileChunk c) t d [fail c.transferId "chunk gap"]
  | torn {c : FileChunk} {st : RecvState H} {d₁ : D} {file : H}
      (known : t.recvs.lookup c.transferId = some st) (next : c.offset = st.written)
      (wrote : disk.writeAll d st.file c.data = (d₁, file, false)) :
      Handled crypto disk t d (.fileChunk c)
        { t with recvs := t.recvs.insert c.transferId { st with file := file } } d₁
        [fail c.transferId "write"]
  | appended {c : FileChunk} {st : RecvState H} {d₁ : D} {file : H}
      (known : t.recvs.lookup c.transferId = some st) (next : c.offset = st.written)
      (wrote : disk.writeAll d st.file c.data = (d₁, file, true)) :
      Handled crypto disk t d (.fileChunk c)
        { t with recvs := t.recvs.insert c.transferId (stored st file c.data) } d₁
        (.event (.progress c.transferId (st.written + c.data.length) st.size) ::
          if due st (st.written + c.data.length) then
            [.out (fileAck c.transferId (st.written + c.data.length))] else [])
  | rejected {c : FileComplete} {st : RecvState H} (reason : String)
      (known : t.recvs.lookup c.transferId = some st)
      (bad : st.written ≠ st.size ∨ crypto.sha256 st.hasher ≠ c.sha256) :
      Handled crypto disk t d (.fileComplete c) { t with recvs := t.recvs.erase c.transferId }
        (disk.removeFile (disk.syncAll d st.file) st.partPath) [fail c.transferId reason]
  | unnamed {c : FileComplete} {st : RecvState H} {d₁ : D} (reason : String)
      (known : t.recvs.lookup c.transferId = some st) (full : st.written = st.size)
      (digest : crypto.sha256 st.hasher = c.sha256)
      (renamed : disk.rename (disk.syncAll d st.file) st.partPath st.finalPath =
        (d₁, .error reason)) :
      Handled crypto disk t d (.fileComplete c) { t with recvs := t.recvs.erase c.transferId } d₁
        [fail c.transferId ("finalize: " ++ reason)]
  | finished {c : FileComplete} {st : RecvState H} {d₁ : D}
      (known : t.recvs.lookup c.transferId = some st) (full : st.written = st.size)
      (digest : crypto.sha256 st.hasher = c.sha256)
      (renamed : disk.rename (disk.syncAll d st.file) st.partPath st.finalPath = (d₁, .ok ())) :
      Handled crypto disk t d (.fileComplete c) { t with recvs := t.recvs.erase c.transferId } d₁
        [.event (.completed c.transferId (some st.finalPath))]
  | acked {a : FileAck} : Handled crypto disk t d (.fileAck a) (t.onAck a) d []
  | cancelled {c : FileCancel} :
      Handled crypto disk t d (.fileCancel c) (t.onCancel c).1 d [fail c.transferId c.reason]

theorem onOffer_cases {crypto : Crypto} {disk : DiskOps D H} {t t' : FileTransfers H} {d d' : D}
    {o : FileOffer} {out : List FileOut} (h : t.onOffer disk d o = (t', d', out)) :
    Handled crypto disk t d (.fileOffer o) t' d' out := by
  unfold onOffer at h
  split at h
  · rename_i made
    cases h
    exact .refused _ made
  · rename_i made
    simp only at h
    split at h
    · rename_i opened
      cases h
      exact .unopened _ made opened
    · rename_i opened
      cases h
      exact .offered made opened rfl

theorem onChunk_cases {crypto : Crypto} {disk : DiskOps D H} {t t' : FileTransfers H} {d d' : D}
    {c : FileChunk} {out : List FileOut} (h : t.onChunk disk d c = (t', d', out)) :
    Handled crypto disk t d (.fileChunk c) t' d' out := by
  unfold onChunk at h
  split at h
  · rename_i unknown
    cases h
    exact .ignored (.inl ⟨c, rfl, fun st known => by simp [unknown] at known⟩)
  · rename_i st known
    split at h
    · rename_i stale
      cases h
      refine .ignored (.inl ⟨c, rfl, fun st' known' => ?_⟩)
      rw [known, Option.some.injEq] at known'
      exact known' ▸ stale
    · rename_i notStale
      split at h
      · rename_i ahead
        cases h
        exact .gap known ahead
      · rename_i notAhead
        have next : c.offset = st.written := by omega
        split at h
        · rename_i wrote
          cases h
          exact .torn known next wrote
        · rename_i wrote
          cases h
          exact .appended known next wrote

theorem onComplete_cases {crypto : Crypto} {disk : DiskOps D H} {t t' : FileTransfers H} {d d' : D}
    {c : FileComplete} {out : List FileOut} (h : t.onComplete crypto disk d c = (t', d', out)) :
    Handled crypto disk t d (.fileComplete c) t' d' out := by
  unfold onComplete at h
  split at h
  · rename_i unknown
    cases h
    exact .ignored (.inr ⟨c, rfl, unknown⟩)
  · rename_i st known
    simp only at h
    split at h
    · rename_i short
      cases h
      exact .rejected _ known (.inl short)
    · rename_i full
      split at h
      · rename_i corrupt
        cases h
        exact .rejected _ known (.inr corrupt)
      · rename_i digest
        split at h
        · rename_i renamed
          cases h
          exact .unnamed _ known (not_not.mp full) (not_not.mp digest) renamed
        · rename_i renamed
          cases h
          exact .finished known (not_not.mp full) (not_not.mp digest) renamed

theorem handle_cases {crypto : Crypto} {disk : DiskOps D H} {t t' : FileTransfers H} {d d' : D}
    {p : Payload} {out : List FileOut} (h : t.handle crypto disk d p = some (t', d', out)) :
    Handled crypto disk t d p t' d' out := by
  unfold handle at h
  split at h
  · exact onOffer_cases (Option.some.inj h)
  · exact onChunk_cases (Option.some.inj h)
  · cases h
    exact .acked
  · exact onComplete_cases (Option.some.inj h)
  · cases h
    exact .cancelled
  · cases h

theorem onCancel_recvs (t : FileTransfers H) (c : FileCancel) :
    (t.onCancel c).1.recvs = t.recvs.erase c.transferId := rfl

theorem onCancel_sends (t : FileTransfers H) (c : FileCancel) :
    (t.onCancel c).1.sends = t.sends.erase c.transferId := rfl

theorem onCancel_length (t : FileTransfers H) (c : FileCancel) :
    (t.onCancel c).1.shared.length = t.shared.length := by
  simp only [onCancel]
  split
  · rfl
  · exact List.length_modify ..

/-- The cells after a cancellation: the one of the transfer, if it is open, has its flag set. -/
theorem onCancel_shared (t : FileTransfers H) (c : FileCancel) (cell : Nat) :
    (t.onCancel c).1.shared[cell]? = t.shared[cell]?.map fun s =>
      if t.sends.lookup c.transferId = some cell then { s with cancel := true } else s := by
  simp only [onCancel]
  cases known : t.sends.lookup c.transferId with
  | none => simp
  | some own =>
      rw [List.getElem?_modify]
      by_cases same : own = cell
      · simp [same]
      · simp [same]

theorem onAck_sends (t : FileTransfers H) (a : FileAck) : (t.onAck a).sends = t.sends := by
  simp only [onAck]
  split <;> rfl

theorem onAck_length (t : FileTransfers H) (a : FileAck) :
    (t.onAck a).shared.length = t.shared.length := by
  simp only [onAck]
  split
  · rfl
  · exact List.length_modify ..

/-- The cells after an acknowledgement. -/
theorem onAck_shared (t : FileTransfers H) (a : FileAck) (cell : Nat) :
    (t.onAck a).shared[cell]? = t.shared[cell]?.map fun s =>
      if t.sends.lookup a.transferId = some cell then
        { s with acked := a.offset, started := true } else s := by
  simp only [onAck]
  cases known : t.sends.lookup a.transferId with
  | none => simp
  | some own =>
      rw [List.getElem?_modify]
      by_cases same : own = cell
      · simp [same]
      · simp [same]

end FileTransfers
end ReachMyDevice
