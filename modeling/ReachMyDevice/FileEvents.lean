import ReachMyDevice.Lib.Ending
import ReachMyDevice.FileHandling
import ReachMyDevice.FileNode

/-!
# How a transfer ends for the user

A transfer that is open has not ended, a thread that may still report has passed
its check of the cancel flag, and a flag that is set has been explained.
-/
namespace ReachMyDevice
open Machines FileSystem Endings

def FileEvent.transferId : FileEvent → String
  | .offered id _ _ | .progress id _ _ | .completed id _ | .failed id _ => id

def FileEvent.terminal : FileEvent → Bool
  | .completed _ _ | .failed _ _ => true
  | .offered _ _ _ | .progress _ _ _ => false

/-- The transfer that an event opens. -/
def FileEvent.opened : FileEvent → Option String
  | .offered id _ _ => some id
  | _ => none

/-- A thread that may go on to report without looking at its cancel flag again. -/
def SendPhase.committed : SendPhase → Bool
  | .read _ _ | .progress _ _ | .complete _ | .completed => true
  | _ => false

/-- The file cannot be read on. -/
def SendAct.fails : SendAct → Bool
  | .hash none | .openFile false | .start false | .read none | .read (some []) => true
  | _ => false

/-- A run with the ids it has used: those `send_file` returned, those the peer has offered and
those that were cancelled here. -/
structure FileHistory where
  node : FileNode
  started : List String
  offers : List String
  cancelled : List String

namespace FileHistory
open FileTransfers Receiver

def record (h : FileHistory) (n : FileNode) : FileAct → FileHistory
  | .handle (.fileOffer o) _ => { h with node := n, offers := h.offers ++ [o.transferId] }
  | .handle _ _ | .thread _ _ => { h with node := n }
  | .sendFile path _ _ => { h with node := n, started := h.started ++ [h.node.nextId path] }
  | .cancel id _ => { h with node := n, cancelled := h.cancelled ++ [id] }

def step (crypto : Crypto) (h : FileHistory) (act : FileAct) : Option FileHistory :=
  (h.node.step crypto act).map fun r => h.record r.1 act

def machine (crypto : Crypto) : Machine FileHistory FileAct where
  init h := ∃ downloadDir fs,
    h = { node := .start downloadDir fs, started := [], offers := [], cancelled := [] }
  step := step crypto

/-- The transfer has reported its end. -/
abbrev Over (h : FileHistory) (id : String) : Prop :=
  Ended FileEvent.transferId FileEvent.terminal h.node.events id

/-- The transfer was started here, or it has emitted `Offered`. -/
def Known (h : FileHistory) (id : String) : Prop :=
  id ∈ h.started ∨ ∃ name size, .offered id name size ∈ h.node.events

/-- A known transfer ends at most once and reports nothing after it, and a thread that has
stopped was cancelled here or its transfer has ended. -/
def EndsWell (h : FileHistory) : Prop :=
  (∀ id, h.Known id → EndsOnce FileEvent.transferId FileEvent.terminal h.node.events id) ∧
  ∀ t, t ∈ h.node.threads → t.phase = .stopped → t.transferId ∈ h.cancelled ∨ h.Over t.transferId

/-- Every id is offered once and not in both directions, and none has ended before it is used.
No chunk leaves a gap or fails to be written. The peer cancels no transfer that has ended and no
file that is just being sent from; a file fails to be read only after a cancellation. -/
def Orderly (h : FileHistory) : FileAct → Prop
  | .handle (.fileOffer o) _ =>
    o.transferId ∉ h.offers ∧ o.transferId ∉ h.started ∧ ¬ h.Over o.transferId
  | .handle (.fileChunk c) plan =>
    ∀ st, h.node.files.recvs.lookup c.transferId = some st →
      c.offset ≤ st.written ∧ (c.offset = st.written → plan.stores c.data = c.data.length)
  | .handle (.fileCancel c) _ =>
    (h.Known c.transferId → ¬ h.Over c.transferId) ∧
      ∀ t, t ∈ h.node.threads → t.transferId = c.transferId → t.phase.committed = false
  | .sendFile path _ _ => h.node.nextId path ∉ h.offers ∧ ¬ h.Over (h.node.nextId path)
  | .thread i act => act.fails = true → ∀ t : SendThread, h.node.threads[i]? = some t →
      ∀ cell : SendShared, h.node.files.shared[t.cell]? = some cell → cell.cancel = true
  | .handle _ _ | .cancel _ _ => True

/-- Which ids, cells and threads belong together. -/
structure Linked (h : FileHistory) : Prop where
  seq : h.node.seq = h.started.length
  ids : ∀ (k : Nat) id, h.started[k]? = some id → ∃ name, id = transferId (k + 1) name
  cells : h.node.files.shared.length = h.started.length
  threads : ∀ (i : Nat) (t : SendThread), h.node.threads[i]? = some t → h.started[t.cell]? = some t.transferId
  apart : ∀ (i j : Nat) (t t' : SendThread), h.node.threads[i]? = some t → h.node.threads[j]? = some t' →
    t.cell = t'.cell → i = j
  sends : ∀ id (cell : Nat), h.node.files.sends.lookup id = some cell → h.started[cell]? = some id
  recvs : ∀ id st, h.node.files.recvs.lookup id = some st → id ∈ h.offers
  offered : ∀ id name size, .offered id name size ∈ h.node.events → id ∈ h.offers
  disjoint : ∀ id, id ∈ h.offers → id ∉ h.started

/-- What holds of a thread that runs. -/
structure Running (h : FileHistory) (t : SendThread) (cell : SendShared) : Prop where
  listed : cell.cancel = false → h.node.files.sends.lookup t.transferId = some t.cell
  going : cell.cancel = false → ¬ h.Over t.transferId
  explained : cell.cancel = true → t.transferId ∈ h.cancelled ∨ h.Over t.transferId
  committed : t.phase.committed = true → ¬ h.Over t.transferId

structure Tracked (h : FileHistory) : Prop where
  linked : Linked h
  recvs : ∀ id st, h.node.files.recvs.lookup id = some st → ¬ h.Over id
  running : ∀ (i : Nat) (t : SendThread), h.node.threads[i]? = some t → t.phase ≠ .stopped →
    ∀ cell, h.node.files.shared[t.cell]? = some cell → Running h t cell
  ends : EndsWell h

section
variable {h : FileHistory}

theorem Linked.same_cell (L : Linked h) {id id' : String} {k k' : Nat} (first : h.started[k]? = some id)
    (second : h.started[k']? = some id') (same : id = id') : k = k' := by
  obtain ⟨name, rfl⟩ := L.ids k id first
  obtain ⟨name', rfl⟩ := L.ids k' id' second
  have := transferId_seq same
  omega

theorem Linked.mem_started (L : Linked h) {i : Nat} {t : SendThread}
    (member : h.node.threads[i]? = some t) : t.transferId ∈ h.started :=
  List.mem_of_getElem? (L.threads i t member)

theorem Linked.inside (L : Linked h) {i : Nat} {t : SendThread}
    (member : h.node.threads[i]? = some t) : t.cell < h.node.files.shared.length := by
  rw [L.cells]
  exact (List.getElem?_eq_some_iff.mp (L.threads i t member)).1

theorem Linked.exists_cell (L : Linked h) {i : Nat} {t : SendThread}
    (member : h.node.threads[i]? = some t) : ∃ cell, h.node.files.shared[t.cell]? = some cell :=
  ⟨_, List.getElem?_eq_getElem (L.inside member)⟩

/-- What the manager does to an envelope, or on a cancellation, keeps the links. -/
theorem Linked.moved (L : Linked h) {files : FileTransfers Handle} {fs : FileStore}
    {events : List FileEvent} {offers : List String} (cancelled : List String)
    (shared : files.shared.length = h.node.files.shared.length)
    (sends : ∀ id cell, files.sends.lookup id = some cell →
      h.node.files.sends.lookup id = some cell)
    (recvs : ∀ id st, files.recvs.lookup id = some st → id ∈ offers)
    (offered : ∀ id name size, .offered id name size ∈ events → id ∈ offers)
    (disjoint : ∀ id, id ∈ offers → id ∉ h.started) :
    Linked {
      node := { h.node with files := files, fs := fs, events := events }
      started := h.started, offers := offers, cancelled := cancelled } where
  seq := L.seq
  ids := L.ids
  cells := shared.trans L.cells
  threads := L.threads
  apart := L.apart
  sends id cell known := L.sends id cell (sends id cell known)
  recvs := recvs
  offered := offered
  disjoint := disjoint

/-- The manager reports on a transfer of the peer's. -/
theorem Tracked.reports (T : Tracked h) {files : FileTransfers Handle} {fs : FileStore}
    {ev : FileEvent} {offers : List String}
    (more : ∀ id, id ∈ h.offers → id ∈ offers) (disjoint : ∀ id, id ∈ offers → id ∉ h.started)
    (listed : ∀ id st, files.recvs.lookup id = some st → id ∈ offers)
    (offered : ∀ id name size, ev = .offered id name size → id ∈ offers)
    (sends : files.sends = h.node.files.sends) (shared : files.shared = h.node.files.shared)
    (foreign : ev.transferId ∉ h.started) (going : ¬ h.Over ev.transferId)
    (recvs : ∀ id st, files.recvs.lookup id = some st →
      ¬ h.Over id ∧ (ev.terminal = true → id ≠ ev.transferId)) :
    Tracked {
      node := { h.node with files := files, fs := fs, events := h.node.events ++ [ev] }
      started := h.started, offers := offers, cancelled := h.cancelled } := by
  have overs : ∀ id, id ∈ h.started → (Ended FileEvent.transferId FileEvent.terminal
      (h.node.events ++ [ev]) id ↔ h.Over id) := by
    intro id own
    rw [ended_concat]
    constructor
    · rintro (ended | ⟨same, -⟩)
      · exact ended
      · exact absurd (same ▸ own) foreign
    · exact .inl
  have linked : Linked {
      node := { h.node with files := files, fs := fs, events := h.node.events ++ [ev] }
      started := h.started, offers := offers, cancelled := h.cancelled } := by
    refine T.linked.moved h.cancelled (by rw [shared]) (fun id cell known => ?_) listed
      (fun id name size member => ?_) disjoint
    · rw [sends] at known
      exact known
    · obtain earlier | now := List.mem_append.mp member
      · exact more id (T.linked.offered id name size earlier)
      · exact offered id name size (List.mem_singleton.mp now).symm
  refine ⟨linked, fun id st known ended => ?_, fun i t member runs cell held => ?_, ?_, ?_⟩
  · obtain ⟨running, ne⟩ := recvs id st known
    obtain ended | ⟨same, ends⟩ := ended_concat.mp ended
    · exact running ended
    · exact ne ends same.symm
  · have own := T.linked.mem_started member
    simp only [shared] at held
    have r := T.running i t member runs cell held
    constructor
    · intro flag
      simp only [sends]
      exact r.listed flag
    · intro flag
      rw [Over, overs _ own]
      exact r.going flag
    · intro flag
      rw [Over, overs _ own]
      exact r.explained flag
    · intro committed
      rw [Over, overs _ own]
      exact r.committed committed
  · intro id known
    rw [endsOnce_concat]
    by_cases same : ev.transferId = id
    · subst same
      exact ⟨endsOnce_of_running going, fun _ => going⟩
    · refine ⟨T.ends.1 id ?_, fun own => absurd own same⟩
      obtain own | ⟨name, size, offered⟩ := known
      · exact .inl own
      · obtain earlier | now := List.mem_append.mp offered
        · exact .inr ⟨name, size, earlier⟩
        · rw [← List.mem_singleton.mp now] at same
          exact absurd rfl same
  · intro t member stopped
    obtain ⟨i, at_i⟩ := List.mem_iff_getElem?.mp member
    rw [Over, overs _ (T.linked.mem_started at_i)]
    exact T.ends.2 t member stopped

/-- What a cancellation does to the cell of a thread. -/
theorem Tracked.flagged (T : Tracked h) {i : Nat} {t : SendThread} (member : h.node.threads[i]? = some t)
    (runs : t.phase ≠ .stopped) (c : FileCancel) {cell : SendShared}
    (held : (h.node.files.onCancel c).1.shared[t.cell]? = some cell) :
    (t.transferId = c.transferId → cell.cancel = true) ∧
      (t.transferId ≠ c.transferId → h.node.files.shared[t.cell]? = some cell) := by
  rw [onCancel_shared, Option.map_eq_some_iff] at held
  obtain ⟨before, was, rfl⟩ := held
  constructor
  · intro same
    split
    · rfl
    · rename_i unlisted
      cases flag : before.cancel with
      | true => rfl
      | false =>
          have listed := (T.running i t member runs before was).listed flag
          rw [same] at listed
          exact absurd listed unlisted
  · intro ne
    rw [if_neg, was]
    intro listed
    have own := T.linked.sends _ _ listed
    have mine := T.linked.threads i t member
    rw [own, Option.some.injEq] at mine
    exact ne mine.symm

/-- The manager drops a transfer, and says so to the user or to the peer. -/
theorem Tracked.drops (T : Tracked h) (c : FileCancel) {events : List FileEvent}
    {cancelled : List String}
    (kept : ∀ id, id ≠ c.transferId →
      (Ended FileEvent.transferId FileEvent.terminal events id ↔ h.Over id))
    (offered : ∀ id name size, .offered id name size ∈ events →
      .offered id name size ∈ h.node.events)
    (more : ∀ id, id ∈ h.cancelled → id ∈ cancelled)
    (overs : h.Over c.transferId → Ended FileEvent.transferId FileEvent.terminal events c.transferId)
    (explained : c.transferId ∈ cancelled ∨
      Ended FileEvent.transferId FileEvent.terminal events c.transferId)
    (committed : ∀ t, t ∈ h.node.threads → t.transferId = c.transferId → t.phase.committed = true →
      ¬ Ended FileEvent.transferId FileEvent.terminal events c.transferId)
    (once : ∀ id, h.Known id → EndsOnce FileEvent.transferId FileEvent.terminal events id) :
    Tracked {
      node := { h.node with files := (h.node.files.onCancel c).1, events := events }
      started := h.started, offers := h.offers, cancelled := cancelled } := by
  refine ⟨?_, fun id st known => ?_, fun i t member runs cell held => ?_, fun id known => ?_,
    fun t member stopped => ?_⟩
  · refine T.linked.moved cancelled (onCancel_length ..) (fun id cell known => ?_)
      (fun id st known => ?_) (fun id name size member => ?_) T.linked.disjoint
    · exact (lookup_erase_some known).2
    · exact T.linked.recvs id st (lookup_erase_some known).2
    · exact T.linked.offered id name size (offered id name size member)
  · obtain ⟨ne, known⟩ := lookup_erase_some known
    rw [Over, kept id ne]
    exact T.recvs id st known
  · obtain ⟨own, other⟩ := T.flagged member runs c held
    by_cases same : t.transferId = c.transferId
    · have flag := own same
      refine ⟨fun unset => ?_, fun unset => ?_, fun _ => ?_, fun past => ?_⟩
      · rw [flag] at unset
        cases unset
      · rw [flag] at unset
        cases unset
      · rw [same]
        exact explained
      · rw [Over, same]
        exact committed t (List.mem_of_getElem? member) same past
    · have r := T.running i t member runs cell (other same)
      refine ⟨fun unset => ?_, fun unset => ?_, fun set => ?_, fun past => ?_⟩
      · rw [onCancel_sends, AList.lookup_erase_ne same]
        exact r.listed unset
      · rw [Over, kept _ same]
        exact r.going unset
      · rw [Over, kept _ same]
        exact (r.explained set).imp_left (more _)
      · rw [Over, kept _ same]
        exact r.committed past
  · refine once id (known.imp_right fun ⟨name, size, member⟩ => ⟨name, size, ?_⟩)
    exact offered id name size member
  · refine (T.ends.2 t member stopped).imp (more _) fun ended => ?_
    by_cases same : t.transferId = c.transferId
    · rw [Over, same] at ended ⊢
      exact overs ended
    · exact (kept _ same).mpr ended

theorem Tracked.peerCancels (T : Tracked h) (c : FileCancel)
    (going : h.Known c.transferId → ¬ h.Over c.transferId)
    (uncommitted : ∀ t, t ∈ h.node.threads → t.transferId = c.transferId →
      t.phase.committed = false) :
    Tracked { h with node := { h.node with
      files := (h.node.files.onCancel c).1
      events := h.node.events ++ [.failed c.transferId c.reason] } } := by
  refine T.drops c (fun id ne => ?_) (fun id name size member => ?_) (fun _ member => member)
    (fun ended => ?_) (.inr ?_) (fun t member own past => ?_) (fun id known => ?_)
  · rw [ended_concat]
    exact or_iff_left fun last => ne last.1.symm
  · obtain earlier | now := List.mem_append.mp member
    · exact earlier
    · cases List.mem_singleton.mp now
  · exact ended_concat.mpr (.inl ended)
  · exact ended_concat.mpr (.inr ⟨rfl, rfl⟩)
  · rw [uncommitted t member own] at past
    cases past
  · refine endsOnce_concat.mpr ⟨T.ends.1 id known, fun own => ?_⟩
    subst own
    exact going known

/-- The user cancels: the peer is told. -/
theorem Tracked.cancels (T : Tracked h) (c : FileCancel) :
    Tracked { h with
      node := { h.node with files := (h.node.files.onCancel c).1 }
      cancelled := h.cancelled ++ [c.transferId] } := by
  refine T.drops c (fun id ne => Iff.rfl) (fun id name size member => member)
    (fun _ member => List.mem_append_left _ member) (fun ended => ended)
    (.inl (List.mem_append_right _ (List.mem_singleton_self _))) (fun t member own past => ?_) T.ends.1
  obtain ⟨i, at_i⟩ := List.mem_iff_getElem?.mp member
  have runs : t.phase ≠ .stopped := by
    intro stopped
    rw [stopped] at past
    cases past
  obtain ⟨cell, held⟩ := T.linked.exists_cell at_i
  exact own ▸ (T.running i t at_i runs cell held).committed past

/-- Nothing is reported, and no thread is told to stop. -/
theorem Tracked.acks (T : Tracked h) (a : FileAck) :
    Tracked { h with node := { h.node with files := h.node.files.onAck a } } := by
  have recvs := onAck_recvs h.node.files a
  refine ⟨?_, fun id st known => ?_, fun i t member runs cell held => ?_, T.ends⟩
  · refine T.linked.moved h.cancelled (onAck_length ..) (fun id cell known => ?_)
      (fun id st known => ?_) T.linked.offered T.linked.disjoint
    · rw [onAck_sends] at known
      exact known
    · rw [recvs] at known
      exact T.linked.recvs id st known
  · simp only [recvs] at known
    exact T.recvs id st known
  · simp only at held
    rw [onAck_shared, Option.map_eq_some_iff] at held
    obtain ⟨before, was, rfl⟩ := held
    have r := T.running i t member runs before was
    have flag : (if h.node.files.sends.lookup a.transferId = some t.cell then
        { before with acked := a.offset, started := true } else before).cancel = before.cancel := by
      split <;> rfl
    refine ⟨fun unset => ?_, fun unset => r.going (flag ▸ unset), fun set => r.explained (flag ▸ set),
      r.committed⟩
    simp only [onAck_sends]
    exact r.listed (flag ▸ unset)

/-- A transfer that was open has reported its end. -/
theorem Tracked.closes (T : Tracked h) {id : String} {st : RecvState Handle} {fs : FileStore}
    {ev : FileEvent} (known : h.node.files.recvs.lookup id = some st) (own : ev.transferId = id) :
    Tracked { h with node := { h.node with
      files := { h.node.files with recvs := h.node.files.recvs.erase id }, fs := fs
      events := h.node.events ++ [ev] } } := by
  subst own
  have member := T.linked.recvs _ _ known
  refine T.reports (fun _ earlier => earlier) T.linked.disjoint (fun id b other => ?_)
    (fun id name size same => ?_) rfl rfl (T.linked.disjoint _ member) (T.recvs _ _ known)
    (fun id b other => ?_)
  · exact T.linked.recvs id b (lookup_erase_some other).2
  · rw [same] at member
    exact member
  · obtain ⟨ne, other⟩ := lookup_erase_some other
    exact ⟨T.recvs id b other, fun _ => ne⟩

theorem Tracked.handled (T : Tracked h) {crypto : Crypto} {p : Payload} {plan : IoPlan}
    {h' : FileHistory} (met : h.Orderly (.handle p plan))
    (stepped : step crypto h (.handle p plan) = some h') : Tracked h' := by
  obtain ⟨n, moved, rfl⟩ := Option.map_eq_some_iff.mp stepped
  obtain ⟨r, handled, rfl⟩ := Option.map_eq_some_iff.mp moved
  obtain ⟨t', d', out⟩ := r
  have all := handle_cases handled
  have disjoint : ∀ o : FileOffer, h.Orderly (.handle (.fileOffer o) plan) →
      ∀ id, id ∈ h.offers ++ [o.transferId] → id ∉ h.started := by
    intro o met id member
    obtain earlier | now := List.mem_append.mp member
    · exact T.linked.disjoint id earlier
    · exact List.mem_singleton.mp now ▸ met.2.1
  have refuses : ∀ (o : FileOffer) (d : FileStore) (reason : String),
      h.Orderly (.handle (.fileOffer o) plan) → Tracked {
        node := { h.node with
          files := h.node.files, fs := d
          events := h.node.events ++ [.failed o.transferId reason] }
        started := h.started, offers := h.offers ++ [o.transferId], cancelled := h.cancelled } := by
    intro o d reason met
    refine T.reports (fun _ => List.mem_append_left _) (disjoint o met) (fun id b known => ?_)
      (fun id name size same => ?_) rfl rfl met.2.1 met.2.2 (fun id b known => ?_)
    · exact List.mem_append_left _ (T.linked.recvs id b known)
    · cases same
    · refine ⟨T.recvs id b known, fun _ (same : id = o.transferId) => met.1 ?_⟩
      exact same ▸ T.linked.recvs id b known
  cases all with
  | refused reason made => exact refuses _ _ _ met
  | unopened reason made opened => exact refuses _ _ _ met
  | offered made opened starts =>
      rename_i o d₁ d₂ file st
      refine T.reports (fun _ => List.mem_append_left _) (disjoint o met)
        (fun id b known => ?_) (fun id name size same => ?_) rfl rfl met.2.1 met.2.2
        (fun id b known => ?_)
      · obtain ⟨rfl, -⟩ | ⟨-, known⟩ := lookup_insert_cases known
        · exact List.mem_append_right _ (List.mem_singleton_self _)
        · exact List.mem_append_left _ (T.linked.recvs id b known)
      · cases same
        exact List.mem_append_right _ (List.mem_singleton_self _)
      · obtain ⟨rfl, -⟩ | ⟨-, known⟩ := lookup_insert_cases known
        · exact ⟨met.2.2, fun ends => by cases ends⟩
        · exact ⟨T.recvs id b known, fun ends => by cases ends⟩
  | ignored known =>
      obtain ⟨c, rfl, -⟩ | ⟨c, rfl, -⟩ := known
      · simp only [FileNode.emit, List.filterMap_nil, List.append_nil]
        exact T
      · simp only [FileNode.emit, List.filterMap_nil, List.append_nil]
        exact T
  | gap known ahead =>
      have := (met _ known).1
      omega
  | torn known next wrote =>
      have whole := (met _ known).2 next
      obtain ⟨-, -, ok⟩ := writeAll_writes wrote
      cases ok.mpr whole
  | appended known next wrote =>
      rename_i c st file
      have quiet : ∀ b : Prop, ∀ d : Decidable b, ∀ env : Envelope,
          (if b then [FileOut.out env] else []).filterMap FileOut.event? = [] := by
        intro b d env
        split <;> rfl
      simp only [FileNode.emit, List.filterMap_cons, FileOut.event?, quiet]
      refine T.reports (fun _ earlier => earlier) T.linked.disjoint (fun id b other => ?_)
        (fun id name size same => ?_) rfl rfl (T.linked.disjoint _ (T.linked.recvs _ _ known))
        (T.recvs _ _ known) (fun id b other => ?_)
      · obtain ⟨rfl, -⟩ | ⟨-, other⟩ := lookup_insert_cases other
        · exact T.linked.recvs _ _ known
        · exact T.linked.recvs id b other
      · cases same
      · obtain ⟨rfl, -⟩ | ⟨-, other⟩ := lookup_insert_cases other
        · exact ⟨T.recvs _ _ known, fun ends => by cases ends⟩
        · exact ⟨T.recvs id b other, fun ends => by cases ends⟩
  | rejected reason known bad => exact T.closes known rfl
  | unnamed reason known full digest renamed => exact T.closes known rfl
  | finished known full digest renamed => exact T.closes known rfl
  | acked =>
      simp only [FileNode.emit, List.filterMap_nil, List.append_nil]
      exact T.acks _
  | cancelled =>
      exact T.peerCancels _ met.1 met.2

/-- A counter is used once. -/
theorem Linked.fresh (L : Linked h) (path : String) : h.node.nextId path ∉ h.started := by
  intro member
  obtain ⟨k, own⟩ := List.mem_iff_getElem?.mp member
  obtain ⟨name, same⟩ := L.ids k _ own
  have := transferId_seq same
  have inside := (List.getElem?_eq_some_iff.mp own).1
  rw [L.seq] at this
  omega

/-- The id, the cell and the thread of a file that is sent belong together. -/
theorem Linked.sends_file (L : Linked h) {path : String} {size : Nat} {spawned : Bool}
    (unoffered : h.node.nextId path ∉ h.offers) :
    Linked (h.record (h.node.sendFile path size spawned).1 (.sendFile path size spawned)) := by
  have old : ∀ (k : Nat) id, h.started[k]? = some id →
      (h.started ++ [h.node.nextId path])[k]? = some id := by
    intro k id own
    rw [List.getElem?_append_left (List.getElem?_eq_some_iff.mp own).1]
    exact own
  have last : (h.started ++ [h.node.nextId path])[h.node.files.shared.length]? =
      some (h.node.nextId path) := by
    rw [L.cells, List.getElem?_concat_length]
  constructor
  · simp only [record, FileNode.sendFile, FileNode.emit, L.seq, List.length_append,
      List.length_singleton]
  · intro k id own
    obtain own | ⟨at_k, same⟩ := Slots.getElem?_concat_cases own
    · exact L.ids k id own
    · refine ⟨(pathFileName path).getD "file", ?_⟩
      rw [same, at_k, FileNode.nextId, L.seq]
  · simp only [record, FileNode.sendFile, FileNode.emit, openSend, List.length_append,
      List.length_singleton, L.cells]
  · intro i t member
    obtain member | ⟨-, rfl⟩ := FileNode.sendFile_threads member
    · exact old _ _ (L.threads i t member)
    · exact last
  · intro i j t t' first second same
    obtain first | ⟨at_i, rfl⟩ := FileNode.sendFile_threads first
    · obtain second | ⟨at_j, rfl⟩ := FileNode.sendFile_threads second
      · exact L.apart i j t t' first second same
      · have := L.inside first
        simp only at same
        omega
    · obtain second | ⟨at_j, rfl⟩ := FileNode.sendFile_threads second
      · have := L.inside second
        simp only at same
        omega
      · rw [at_i, at_j]
  · intro id cell known
    simp only [record, FileNode.sendFile, FileNode.emit, openSend] at known
    obtain ⟨rfl, rfl⟩ | ⟨-, known⟩ := lookup_insert_cases known
    · exact last
    · exact old _ _ (L.sends id cell known)
  · exact L.recvs
  · intro id name bytes member
    simp only [record, FileNode.sendFile_events] at member
    exact L.offered id name bytes member
  · intro id offered member
    obtain earlier | now := List.mem_append.mp member
    · exact L.disjoint id offered earlier
    · exact unoffered (List.mem_singleton.mp now ▸ offered)

theorem Tracked.sends (T : Tracked h) (crypto : Crypto) {path : String} {size : Nat}
    {spawned : Bool} {h' : FileHistory} (met : h.Orderly (.sendFile path size spawned))
    (stepped : step crypto h (.sendFile path size spawned) = some h') : Tracked h' := by
  obtain ⟨n, moved, rfl⟩ := Option.map_eq_some_iff.mp stepped
  cases moved
  obtain ⟨unoffered, going⟩ := met
  have L := T.linked
  have overs : ∀ id, (h.record (h.node.sendFile path size spawned).1
      (.sendFile path size spawned)).Over id ↔ h.Over id := by
    intro id
    simp only [Over, record, FileNode.sendFile_events]
  refine ⟨L.sends_file unoffered, ?_, ?_, ?_, ?_⟩
  · intro id st known
    rw [overs]
    exact T.recvs id st known
  · intro i t member runs cell held
    obtain member | ⟨-, rfl⟩ := FileNode.sendFile_threads member
    · have own : h.node.files.shared[t.cell]? = some cell := by
        simp only [record, FileNode.sendFile, FileNode.emit, openSend] at held
        rw [List.getElem?_append_left (L.inside member)] at held
        exact held
      have r := T.running i t member runs cell own
      refine ⟨fun unset => ?_, fun unset => ?_, fun set => ?_, fun past => ?_⟩
      · simp only [record, FileNode.sendFile, FileNode.emit, openSend]
        have ne : t.transferId ≠ h.node.nextId path := by
          intro same
          exact L.fresh path (same ▸ L.mem_started member)
        rw [AList.lookup_insert_ne ne]
        exact r.listed unset
      · rw [overs]
        exact r.going unset
      · rw [overs]
        exact r.explained set
      · rw [overs]
        exact r.committed past
    · have own : cell = { acked := 0, started := false, cancel := false } := by
        simp only [record, FileNode.sendFile, FileNode.emit, openSend,
          List.getElem?_concat_length, Option.some.injEq] at held
        exact held.symm
      refine ⟨fun _ => ?_, fun _ => ?_, fun set => ?_, fun past => ?_⟩
      · simp only [record, FileNode.sendFile, FileNode.emit, openSend]
        exact AList.lookup_insert _
      · rw [overs]
        exact going
      · rw [own] at set
        cases set
      · cases past
  · intro id known
    simp only [record, FileNode.sendFile_events]
    by_cases new : id = h.node.nextId path
    · subst new
      exact endsOnce_of_running going
    · refine T.ends.1 id ?_
      obtain own | ⟨name, bytes, member⟩ := known
      · obtain earlier | now := List.mem_append.mp own
        · exact .inl earlier
        · exact absurd (List.mem_singleton.mp now) new
      · simp only [record, FileNode.sendFile_events] at member
        exact .inr ⟨name, bytes, member⟩
  · intro t member stopped
    obtain ⟨i, at_i⟩ := List.mem_iff_getElem?.mp member
    rw [overs]
    obtain earlier | ⟨-, rfl⟩ := FileNode.sendFile_threads at_i
    · exact T.ends.2 t (List.mem_of_getElem? earlier) stopped
    · cases stopped

/-- A thread goes on, and perhaps reports. -/
theorem Tracked.threadMoves (T : Tracked h) {i : Nat} {t : SendThread} {phase : SendPhase}
    {events : List FileEvent} (member : h.node.threads[i]? = some t) (runs : t.phase ≠ .stopped)
    (other : ∀ id, id ≠ t.transferId →
      (Ended FileEvent.transferId FileEvent.terminal events id ↔ h.Over id))
    (going : phase ≠ .stopped →
      (Ended FileEvent.transferId FileEvent.terminal events t.transferId ↔ h.Over t.transferId))
    (committed : phase.committed = true → ¬ h.Over t.transferId)
    (stopped : phase = .stopped → t.transferId ∈ h.cancelled ∨
      Ended FileEvent.transferId FileEvent.terminal events t.transferId)
    (offered : ∀ id name size, .offered id name size ∈ events →
      .offered id name size ∈ h.node.events)
    (once : ∀ id, h.Known id → EndsOnce FileEvent.transferId FileEvent.terminal events id) :
    Tracked { h with node := { h.node with
      threads := h.node.threads.set i { t with phase := phase }, events := events } } := by
  have L := T.linked
  have apart : ∀ (j : Nat) (t' : SendThread), h.node.threads[j]? = some t' → j ≠ i →
      t'.transferId ≠ t.transferId := by
    intro j t' at_j ne same
    exact ne (L.apart j i t' t at_j member (L.same_cell (L.threads j t' at_j) (L.threads i t member) same))
  refine ⟨?_, fun id st known => ?_, fun j t' at_j runs' cell held => ?_, fun id known => ?_,
    fun t' listed ended => ?_⟩
  · constructor
    · exact L.seq
    · exact L.ids
    · exact L.cells
    · intro j t' at_j
      obtain ⟨-, rfl⟩ | ⟨-, at_j⟩ := Slots.getElem?_set_cases at_j
      · exact L.threads i t member
      · exact L.threads j t' at_j
    · intro j k t₁ t₂ first second same
      obtain ⟨at_i, rfl⟩ | ⟨-, first⟩ := Slots.getElem?_set_cases first
      · obtain ⟨at_i', rfl⟩ | ⟨-, second⟩ := Slots.getElem?_set_cases second
        · rw [at_i, at_i']
        · rw [at_i]
          exact L.apart i k t t₂ member second same
      · obtain ⟨at_i', rfl⟩ | ⟨-, second⟩ := Slots.getElem?_set_cases second
        · rw [at_i']
          exact L.apart j i t₁ t first member same
        · exact L.apart j k t₁ t₂ first second same
    · exact L.sends
    · exact L.recvs
    · exact fun id name size listed => L.offered id name size (offered id name size listed)
    · exact L.disjoint
  · rw [Over, other]
    · exact T.recvs id st known
    · intro same
      exact L.disjoint id (L.recvs id st known) (same ▸ L.mem_started member)
  · obtain ⟨-, rfl⟩ | ⟨ne, at_j⟩ := Slots.getElem?_set_cases at_j
    · have r := T.running i t member runs cell held
      refine ⟨r.listed, fun unset => ?_, fun set => ?_, fun past => ?_⟩
      · rw [Over, going runs']
        exact r.going unset
      · rw [Over, going runs']
        exact r.explained set
      · rw [Over, going runs']
        exact committed past
    · have r := T.running j t' at_j runs' cell held
      have same := other _ (apart j t' at_j ne)
      refine ⟨r.listed, fun unset => ?_, fun set => ?_, fun past => ?_⟩
      · rw [Over, same]
        exact r.going unset
      · rw [Over, same]
        exact r.explained set
      · rw [Over, same]
        exact r.committed past
  · exact once id (known.imp_right fun ⟨name, size, listed⟩ => ⟨name, size, offered _ _ _ listed⟩)
  · obtain ⟨j, at_j⟩ := List.mem_iff_getElem?.mp listed
    obtain ⟨-, rfl⟩ | ⟨ne, at_j⟩ := Slots.getElem?_set_cases at_j
    · exact stopped ended
    · rw [Over, other _ (apart j t' at_j ne)]
      exact T.ends.2 t' (List.mem_of_getElem? at_j) ended

/-- A thread goes on without a report. -/
theorem Tracked.threadQuiet (T : Tracked h) {i : Nat} {t : SendThread} {phase : SendPhase}
    (member : h.node.threads[i]? = some t) (runs : t.phase ≠ .stopped)
    (committed : phase.committed = true → ¬ h.Over t.transferId)
    (stopped : phase = .stopped → t.transferId ∈ h.cancelled ∨ h.Over t.transferId) :
    Tracked { h with node := { h.node with
      threads := h.node.threads.set i { t with phase := phase } } } :=
  T.threadMoves member runs (fun _ _ => Iff.rfl) (fun _ => Iff.rfl) committed stopped
    (fun _ _ _ listed => listed) T.ends.1

/-- A thread reports on its transfer, which has not ended. -/
theorem Tracked.threadReports (T : Tracked h) {i : Nat} {t : SendThread} {phase : SendPhase}
    {ev : FileEvent} (member : h.node.threads[i]? = some t) (runs : t.phase ≠ .stopped)
    (own : ev.transferId = t.transferId) (running : ¬ h.Over t.transferId)
    (ends : ev.terminal = true ↔ phase = .stopped) (news : ∀ id name size, ev ≠ .offered id name size) :
    Tracked { h with node := { h.node with
      threads := h.node.threads.set i { t with phase := phase }
      events := h.node.events ++ [ev] } } := by
  refine T.threadMoves member runs (fun id ne => ?_) (fun goes => ?_) (fun _ => running)
    (fun last => .inr ?_) (fun id name size listed => ?_) (fun id known => ?_)
  · rw [ended_concat]
    exact or_iff_left fun last => ne (last.1.symm.trans own)
  · rw [ended_concat]
    exact or_iff_left fun last => goes (ends.mp last.2)
  · exact ended_concat.mpr (.inr ⟨own, ends.mpr last⟩)
  · obtain earlier | now := List.mem_append.mp listed
    · exact earlier
    · exact absurd (List.mem_singleton.mp now).symm (news id name size)
  · refine endsOnce_concat.mpr ⟨T.ends.1 id known, fun same => ?_⟩
    rw [← same, own]
    exact running

theorem Tracked.thread (T : Tracked h) {crypto : Crypto} {i : Nat} {act : SendAct}
    {h' : FileHistory} (met : h.Orderly (.thread i act))
    (stepped : step crypto h (.thread i act) = some h') : Tracked h' := by
  obtain ⟨r, moved, rfl⟩ := Option.map_eq_some_iff.mp stepped
  obtain ⟨t, cell, phase, out, member, held, acted, same⟩ := FileNode.runThread_cases moved
  rw [show r.1 = _ from congrArg Prod.fst same]
  have runs := acted.runs
  have r := T.running i t member runs cell held
  have moves : ∀ (phase : SendPhase) (out : List FileOut), out.filterMap FileOut.event? = [] →
      (phase.committed = true → ¬ h.Over t.transferId) →
      (phase = .stopped → t.transferId ∈ h.cancelled ∨ h.Over t.transferId) →
      Tracked (h.record ({ h.node with
        threads := h.node.threads.set i { t with phase := phase } }.emit out).1 (.thread i act)) := by
    intro phase out quiet committed stopped
    simp only [FileNode.emit, quiet, List.append_nil]
    exact T.threadQuiet member runs committed stopped
  have stops : cell.cancel = true →
      Tracked (h.record ({ h.node with
        threads := h.node.threads.set i { t with phase := .stopped } }.emit []).1 (.thread i act)) := by
    intro cancel
    exact moves .stopped [] rfl (fun past => by cases past) (fun _ => r.explained cancel)
  cases acted with
  | unhashed at_ => exact stops (met rfl t member cell held)
  | hashed at_ => exact moves _ [] rfl (fun past => by cases past) (fun last => by cases last)
  | unopened at_ => exact stops (met rfl t member cell held)
  | opened at_ => exact moves _ [] rfl (fun past => by cases past) (fun last => by cases last)
  | unsought at_ started => exact stops (met rfl t member cell held)
  | sought at_ started => exact moves _ [] rfl (fun past => by cases past) (fun last => by cases last)
  | abandoned at_ cancel => exact stops cancel
  | stops at_ cancel => exact stops cancel
  | finishes at_ going sent acked =>
      exact moves _ [] rfl (fun _ => r.going going) (fun last => by cases last)
  | goesOn at_ going left fits =>
      exact moves _ [] rfl (fun _ => r.going going) (fun last => by cases last)
  | unread at_ nothing =>
      refine stops (met ?_ t member cell held)
      obtain rfl | rfl := nothing
      · rfl
      · rfl
  | chunk at_ some_ fits =>
      exact moves _ _ rfl (fun _ => r.committed (at_ ▸ rfl)) (fun last => by cases last)
  | completes at_ =>
      exact moves _ _ rfl (fun _ => r.committed (at_ ▸ rfl)) (fun last => by cases last)
  | progressed at_ =>
      refine T.threadReports member runs rfl (r.committed (at_ ▸ rfl)) ?_ ?_
      · constructor
        · intro ends
          cases ends
        · intro last
          cases last
      · intro id name size same
        cases same
  | completed at_ =>
      refine T.threadReports member runs rfl (r.committed (at_ ▸ rfl)) ?_ ?_
      · exact ⟨fun _ => rfl, fun _ => rfl⟩
      · intro id name size same
        cases same

end

theorem tracked_start {crypto : Crypto} {h : FileHistory} (first : (machine crypto).init h) :
    Tracked h := by
  obtain ⟨downloadDir, fs, rfl⟩ := first
  refine ⟨?_, ?_, ?_, ?_, ?_⟩
  · constructor
    · rfl
    · intro k id own
      cases own
    · rfl
    · intro i t member
      cases member
    · intro i j t t' member
      cases member
    · intro id cell known
      cases known
    · intro id st known
      cases known
    · intro id name size listed
      cases listed
    · intro id offered
      cases offered
  · intro id st known
    cases known
  · intro i t member
    cases member
  · intro id known
    exact List.Pairwise.nil
  · intro t member
    cases member

theorem tracked_step {crypto : Crypto} {h h' : FileHistory} {act : FileAct} (T : Tracked h)
    (met : h.Orderly act) (stepped : (machine crypto).step h act = some h') : Tracked h' := by
  cases act with
  | handle p plan => exact T.handled met stepped
  | sendFile path size spawned => exact T.sends crypto met stepped
  | cancel id reason =>
      cases stepped
      simp only [FileTransfers.cancel, FileNode.emit, List.filterMap_cons, FileOut.event?,
        List.filterMap_nil, List.append_nil]
      exact T.cancels { transferId := id, reason }
  | thread i act => exact T.thread met stepped

theorem ends_well (crypto : Crypto) {h : FileHistory}
    (run : (machine crypto).ReachableBy Orderly h) : h.EndsWell :=
  (run.invariant (I := Tracked) (fun _ => tracked_start)
    (fun _ _ _ T met step => tracked_step T met step)).ends

instance (h : FileHistory) (id : String) : Decidable (h.Known id) :=
  decidable_of_iff (id ∈ h.started ∨ ∃ ev, ev ∈ h.node.events ∧ ev.opened = some id) (by
    constructor
    · rintro (own | ⟨ev, member, opened⟩)
      · exact .inl own
      · cases ev <;> cases opened
        exact .inr ⟨_, _, member⟩
    · rintro (own | ⟨name, size, member⟩)
      · exact .inl own
      · exact .inr ⟨_, member, rfl⟩)

instance (h : FileHistory) : ∀ act, Decidable (h.Orderly act)
  | .handle (.fileOffer o) _ => inferInstanceAs (Decidable (_ ∧ _ ∧ ¬ h.Over o.transferId))
  | .handle (.fileChunk _) _ => inferInstanceAs (Decidable (∀ st, _ = some st → _ ∧ (_ → _)))
  | .handle (.fileCancel c) _ =>
    inferInstanceAs (Decidable ((h.Known c.transferId → ¬ h.Over c.transferId) ∧ _))
  | .sendFile path _ _ => inferInstanceAs (Decidable (_ ∧ ¬ h.Over (h.node.nextId path)))
  | .thread _ act => inferInstanceAs (Decidable (act.fails = true → ∀ t, _ = some t → ∀ _, _ → _))
  | .cancel _ _ => .isTrue trivial
  | .handle (.fileAck _) _ | .handle (.fileComplete _) _ | .handle (.hello _) _
  | .handle (.helloAck _) _ | .handle (.input _) _ | .handle (.ping _) _ | .handle (.pong _) _
  | .handle (.bye _) _ | .handle (.clipboard _) _ | .handle (.displayList _) _
  | .handle (.selectDisplay _) _ | .handle .requestKeyframe _ | .handle (.viewOnly _) _
  | .handle (.audio _ _) _ | .handle (.setZoom _) _ => .isTrue trivial

/-- A file is received and another one is sent. -/
theorem ends_well_both : ∃ h, (machine sampleCrypto).ReachableBy Orderly h ∧
    h.node.events = [.offered "x" "a" 1, .progress "x" 1 1, .progress "tx-1-b" 1 1,
      .completed "x" (some "dl/a"), .completed "tx-1-b" none] ∧ h.EndsWell := by
  obtain ⟨h, run, events⟩ := (machine sampleCrypto).exists_reachableBy Orderly
    ⟨"dl", Receiver.emptyStore, rfl⟩
    [.sendFile "b" 1 true, .handle (sampleOffer "x" "a" 1).1 .reliable,
      .handle (.fileAck { transferId := "tx-1-b", offset := 0 }) .reliable,
      .handle (sampleChunk "x" 0 [1]).1 .reliable, .thread 0 (.hash (some [2])),
      .thread 0 (.openFile true), .thread 0 (.start true), .thread 0 .check,
      .thread 0 (.read (some [2])), .thread 0 .report,
      .handle (.fileAck { transferId := "tx-1-b", offset := 1 }) .reliable, .thread 0 .check,
      .handle (sampleComplete "x" [1]).1 .reliable, .thread 0 .complete, .thread 0 .report]
    (fun h => h.node.events = [.offered "x" "a" 1, .progress "x" 1 1, .progress "tx-1-b" 1 1,
      .completed "x" (some "dl/a"), .completed "tx-1-b" none]) (by decide)
  exact ⟨h, run, events, ends_well sampleCrypto run⟩

/-- A gap fails the transfer and keeps it open, so that it fails again with the next chunk. -/
theorem gap_fails_twice : ∃ h, (machine sampleCrypto).Reachable h ∧ h.offers.Nodup ∧ ¬ h.EndsWell := by
  obtain ⟨h, run, offers, events⟩ := (machine sampleCrypto).exists_reachableBy Machine.Always
    ⟨"dl", Receiver.emptyStore, rfl⟩
    [.handle (sampleOffer "x" "a" 3).1 .reliable, .handle (sampleChunk "x" 1 [1]).1 .reliable,
      .handle (sampleChunk "x" 2 [1]).1 .reliable]
    (fun h => h.offers = ["x"] ∧ h.node.events =
      [.offered "x" "a" 3, .failed "x" "chunk gap", .failed "x" "chunk gap"]) (by decide)
  refine ⟨h, run, by simp [offers], fun well => ?_⟩
  have once := well.1 "x" (.inr ⟨"a", 3, by simp [events]⟩)
  rw [events] at once
  exact absurd once (by decide)

end FileHistory
end ReachMyDevice
