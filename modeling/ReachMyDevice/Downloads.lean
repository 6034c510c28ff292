import Mathlib.Data.List.TakeWhile
import ReachMyDevice.FileHandling
import ReachMyDevice.FileReceiver

/-!
# Where the receiver writes

The disk is watched: an open file carries the path it was opened by, and every
call that may change a file is noted under its paths. The calls go to direct
children of the download directory.
-/
namespace ReachMyDevice
open Machines FileSystem

/-- A call that may change the file system, with the paths it is made on. -/
inductive DiskAct
  | makeDir (path : String)
  | openWrite (path : String)
  | setLen (path : String) (n : Nat)
  | write (path : String) (bytes : Bytes)
  | remove (path : String)
  | rename (old new : String)
  deriving DecidableEq, Repr

/-- The same disk, with its calls noted. -/
def watched {D H : Type} (disk : DiskOps D H) : DiskOps (D × List DiskAct) (String × H) where
  createDirAll d path :=
    (((disk.createDirAll d.1 path).1, d.2 ++ [.makeDir path]), (disk.createDirAll d.1 path).2)
  metadataLen d path := disk.metadataLen d.1 path
  openRead d path := (disk.openRead d.1 path).map fun h => (path, h)
  read d h n := ((h.1, (disk.read d.1 h.2 n).1), (disk.read d.1 h.2 n).2)
  openWrite d path :=
    (((disk.openWrite d.1 path).1, d.2 ++ [.openWrite path]),
      (disk.openWrite d.1 path).2.map fun h => (path, h))
  setLen d h n := (disk.setLen d.1 h.2 n, d.2 ++ [.setLen h.1 n])
  seekStart d h n := (h.1, disk.seekStart d.1 h.2 n)
  writeAll d h bytes :=
    (((disk.writeAll d.1 h.2 bytes).1, d.2 ++ [.write h.1 bytes]),
      (h.1, (disk.writeAll d.1 h.2 bytes).2.1), (disk.writeAll d.1 h.2 bytes).2.2)
  syncAll d h := (disk.syncAll d.1 h.2, d.2)
  removeFile d path := (disk.removeFile d.1 path, d.2 ++ [.remove path])
  rename d old new :=
    (((disk.rename d.1 old new).1, d.2 ++ [.rename old new]), (disk.rename d.1 old new).2)

section
variable {D H : Type} {disk : DiskOps D H} {d d' : D × List DiskAct} {h h' : String × H}

theorem watched_createDirAll {path : String} {r : Except String Unit}
    (made : (watched disk).createDirAll d path = (d', r)) :
    disk.createDirAll d.1 path = (d'.1, r) ∧ d'.2 = d.2 ++ [.makeDir path] := by
  cases made
  exact ⟨rfl, rfl⟩

theorem watched_openWrite {path : String} (opened : (watched disk).openWrite d path = (d', .ok h)) :
    disk.openWrite d.1 path = (d'.1, .ok h.2) ∧ h.1 = path ∧ d'.2 = d.2 ++ [.openWrite path] := by
  simp only [watched, Prod.mk.injEq] at opened
  obtain ⟨rfl, got⟩ := opened
  cases result : (disk.openWrite d.1 path).2 with
  | error e =>
      rw [result] at got
      cases got
  | ok file =>
      rw [result] at got
      cases got
      exact ⟨Prod.ext rfl result, rfl, rfl⟩

theorem watched_openWrite_error {path reason : String}
    (opened : (watched disk).openWrite d path = (d', .error reason)) :
    disk.openWrite d.1 path = (d'.1, .error reason) ∧ d'.2 = d.2 ++ [.openWrite path] := by
  simp only [watched, Prod.mk.injEq] at opened
  obtain ⟨rfl, got⟩ := opened
  cases result : (disk.openWrite d.1 path).2 with
  | error e =>
      rw [result] at got
      cases got
      exact ⟨Prod.ext rfl result, rfl⟩
  | ok file =>
      rw [result] at got
      cases got

theorem watched_writeAll {bytes : Bytes} {ok : Bool}
    (wrote : (watched disk).writeAll d h bytes = (d', h', ok)) :
    disk.writeAll d.1 h.2 bytes = (d'.1, h'.2, ok) ∧ h'.1 = h.1 ∧
      d'.2 = d.2 ++ [.write h.1 bytes] := by
  cases wrote
  exact ⟨rfl, rfl, rfl⟩

theorem watched_rename {old new : String} {r : Except String Unit}
    (renamed : (watched disk).rename d old new = (d', r)) :
    disk.rename d.1 old new = (d'.1, r) ∧ d'.2 = d.2 ++ [.rename old new] := by
  cases renamed
  exact ⟨rfl, rfl⟩

end

/-- One component of a path. -/
structure IsComponent (name : String) : Prop where
  nonempty : name ≠ ""
  separators : ∀ c, c ∈ name.toList → c ≠ '/' ∧ c ≠ '\\'
  here : name ≠ "."
  up : name ≠ ".."

/-- A path right under the directory. -/
def Child (dir path : String) : Prop := ∃ name, IsComponent name ∧ path = FileTransfers.join dir name

/-- A call keeps to the directory: it makes the directory itself or goes to its children. -/
def DiskAct.Within (dir : String) : DiskAct → Prop
  | .makeDir path => path = dir
  | .openWrite path | .setLen path _ | .write path _ | .remove path => Child dir path
  | .rename old new => Child dir old ∧ Child dir new

namespace FileTransfers

theorem mem_trimDots {l : List Char} {c : Char} (member : c ∈ trimDots l) : c ∈ l := by
  rw [trimDots, List.mem_reverse] at member
  have inner := (List.dropWhile_sublist _).subset member
  exact (List.dropWhile_sublist _).subset (List.mem_reverse.mp inner)

/-- What is left of a name begins with no dot. -/
theorem trimDots_head {l : List Char} {c : Char} (first : (trimDots l).head? = some c) : c ≠ '.' := by
  intro dot
  let inner := l.dropWhile (· == '.')
  have front : inner.head? = some c := by
    have back := List.dropWhile_suffix (l := inner.reverse) (· == '.')
    have before : (inner.reverse.dropWhile (· == '.')).reverse <+: inner := by
      simpa using List.reverse_prefix.mpr back
    obtain ⟨rest, whole⟩ := before
    rw [← whole, List.head?_append, show (inner.reverse.dropWhile (· == '.')).reverse.head? = some c
      from first]
    rfl
  have stays := List.head?_dropWhile_not (· == '.') l
  rw [show (l.dropWhile (· == '.')).head? = some c from front, dot] at stays
  simp at stays

theorem plain_of_all {l : List Char} (h : (l.all fun c => c != '/' && c != '\\') = true) (c : Char)
    (member : c ∈ l) : c ≠ '/' ∧ c ≠ '\\' := by
  simpa using List.all_eq_true.mp h c member

theorem mem_baseName {l : List Char} {c : Char} (member : c ∈ baseName l) : c ≠ '/' ∧ c ≠ '\\' := by
  rw [baseName, List.mem_reverse] at member
  simpa using List.mem_takeWhile_imp member

/-- Whatever name is offered, what is used of it is one component. -/
theorem sanitize_component (name : String) : IsComponent (sanitize name) := by
  unfold sanitize
  simp only
  split
  · exact ⟨by decide, plain_of_all (by decide), by decide, by decide⟩
  · rename_i some_
    have list := String.toList_ofList (l := trimDots (baseName name.toList))
    constructor
    · intro empty
      rw [empty] at list
      exact some_ (List.isEmpty_iff.mpr list.symm)
    · intro c member
      rw [list] at member
      exact mem_baseName (mem_trimDots member)
    · intro same
      rw [same] at list
      exact trimDots_head (c := '.') (by rw [← list]; rfl) rfl
    · intro same
      rw [same] at list
      exact trimDots_head (c := '.') (by rw [← list]; rfl) rfl

theorem component_part {name : String} (component : IsComponent name) :
    IsComponent (withExt name "part") := by
  have list : (withExt name "part").toList = name.toList ++ ['.', 'p', 'a', 'r', 't'] := by
    simp [withExt, String.toList_append]
  have long : 5 ≤ (withExt name "part").toList.length := by
    rw [list, List.length_append]
    exact Nat.le_add_left ..
  constructor
  · intro same
    rw [same] at long
    exact absurd long (by decide)
  · intro c member
    rw [list, List.mem_append] at member
    obtain inside | ext := member
    · exact component.separators c inside
    · exact plain_of_all (by decide) c ext
  · intro same
    rw [same] at long
    exact absurd long (by decide)
  · intro same
    rw [same] at long
    exact absurd long (by decide)

theorem withExt_join (dir name ext : String) :
    withExt (join dir name) ext = join dir (withExt name ext) := by
  simp only [withExt, join]
  split
  · rfl
  · split <;> simp only [String.append_assoc]

section
variable {H : Type} (t : FileTransfers H) (o : FileOffer)

theorem finalPath_child : Child t.downloadDir (t.finalPath o) :=
  ⟨sanitize o.name, sanitize_component o.name, rfl⟩

theorem partPath_child : Child t.downloadDir (t.partPath o) :=
  ⟨withExt (sanitize o.name) "part", component_part (sanitize_component o.name),
    withExt_join t.downloadDir (sanitize o.name) "part"⟩

end

/-- The open files are those of the `.part`s, and all paths are children of the directory. -/
structure Confined {H : Type} (dir : String) (t : FileTransfers (String × H)) : Prop where
  place : t.downloadDir = dir
  opened : ∀ id st, t.recvs.lookup id = some st →
    st.file.1 = st.partPath ∧ Child dir st.partPath ∧ Child dir st.finalPath

section
variable {D H : Type} {crypto : Crypto} {disk : DiskOps D H} {dir : String}
  {t t' : FileTransfers (String × H)} {d d' : D × List DiskAct} {p : Payload} {out : List FileOut}

theorem Confined.insert (h : Confined dir t) {id : String} {st : RecvState (String × H)}
    (fresh : st.file.1 = st.partPath ∧ Child dir st.partPath ∧ Child dir st.finalPath) :
    Confined dir { t with recvs := t.recvs.insert id st } := by
  constructor
  · exact h.place
  · intro id' st' known
    obtain ⟨-, rfl⟩ | ⟨-, known⟩ := lookup_insert_cases known
    · exact fresh
    · exact h.opened id' st' known

theorem Confined.erase (h : Confined dir t) {id : String} (place : t'.downloadDir = t.downloadDir)
    (recvs : t'.recvs = t.recvs.erase id) : Confined dir t' := by
  constructor
  · exact place.trans h.place
  · intro id' st' known
    rw [recvs] at known
    exact h.opened id' st' (lookup_erase_some known).2

theorem onCancel_downloadDir {H : Type} (t : FileTransfers H) (c : FileCancel) :
    (t.onCancel c).1.downloadDir = t.downloadDir := rfl

theorem onAck_downloadDir {H : Type} (t : FileTransfers H) (a : FileAck) :
    (t.onAck a).downloadDir = t.downloadDir := by
  simp only [onAck]
  split <;> rfl

/-- One envelope, on any disk. -/
theorem handled_within (handled : Handled crypto (watched disk) t d p t' d' out)
    (h : Confined dir t) (before : ∀ act, act ∈ d.2 → act.Within dir) :
    Confined dir t' ∧ ∀ act, act ∈ d'.2 → act.Within dir := by
  have grow {acts acts' : List DiskAct} {act : DiskAct} (all : ∀ act, act ∈ acts → act.Within dir)
      (noted : acts' = acts ++ [act]) (fresh : act.Within dir) :
      ∀ act, act ∈ acts' → act.Within dir := by
    intro other member
    rw [noted, List.mem_append, List.mem_singleton] at member
    obtain old | rfl := member
    · exact all other old
    · exact fresh
  cases handled with
  | refused reason made =>
      obtain ⟨-, noted⟩ := watched_createDirAll made
      exact ⟨h, grow before noted h.place⟩
  | unopened reason made opened =>
      rename_i o d₁
      obtain ⟨-, noted⟩ := watched_createDirAll made
      obtain ⟨-, noted'⟩ := watched_openWrite_error opened
      exact ⟨h, grow (grow before noted h.place) noted' (h.place ▸ partPath_child t o)⟩
  | offered made opened starts =>
      rename_i o d₁ d₂ file st
      obtain ⟨-, noted⟩ := watched_createDirAll made
      obtain ⟨-, path, noted'⟩ := watched_openWrite opened
      have child : Child dir (t.partPath o) := h.place ▸ partPath_child t o
      have fresh : st.file.1 = st.partPath ∧ Child dir st.partPath ∧ Child dir st.finalPath := by
        rw [starts]
        exact ⟨path, child, h.place ▸ finalPath_child t o⟩
      exact ⟨h.insert fresh,
        grow (grow (grow before noted h.place) noted' child) rfl (path.symm ▸ child)⟩
  | ignored known => exact ⟨h, before⟩
  | gap known ahead => exact ⟨h, before⟩
  | torn known next wrote =>
      rename_i c st file
      obtain ⟨-, path, noted⟩ := watched_writeAll wrote
      obtain ⟨own, part, final⟩ := h.opened _ st known
      exact ⟨h.insert ⟨path.trans own, part, final⟩, grow before noted (own.symm ▸ part)⟩
  | appended known next wrote =>
      rename_i c st file
      obtain ⟨-, path, noted⟩ := watched_writeAll wrote
      obtain ⟨own, part, final⟩ := h.opened _ st known
      exact ⟨h.insert ⟨path.trans own, part, final⟩, grow before noted (own.symm ▸ part)⟩
  | rejected reason known bad =>
      rename_i c st
      obtain ⟨-, part, -⟩ := h.opened _ st known
      exact ⟨h.erase rfl rfl, grow before rfl part⟩
  | unnamed reason known full digest renamed =>
      rename_i c st
      obtain ⟨-, part, final⟩ := h.opened _ st known
      exact ⟨h.erase rfl rfl, grow before (watched_rename renamed).2 ⟨part, final⟩⟩
  | finished known full digest renamed =>
      rename_i c st
      obtain ⟨-, part, final⟩ := h.opened _ st known
      exact ⟨h.erase rfl rfl, grow before (watched_rename renamed).2 ⟨part, final⟩⟩
  | acked =>
      rename_i a
      refine ⟨⟨(onAck_downloadDir t a).trans h.place, fun id st known => ?_⟩, before⟩
      rw [onAck_recvs] at known
      exact h.opened id st known
  | cancelled =>
      rename_i c
      exact ⟨h.erase (onCancel_downloadDir t c) (onCancel_recvs t c), before⟩

end
end FileTransfers

/-- The receiver over a watched disk. For every path that was reported as completed,
`reported` keeps what the file held when it was reported last. -/
structure Downloads where
  files : FileTransfers (String × Handle)
  fs : FileStore
  acts : List DiskAct
  reported : AList fun _ : String => Option Bytes

namespace Downloads
open FileTransfers

def start (downloadDir : String) (fs : FileStore) : Downloads where
  files := .new downloadDir
  fs := fs
  acts := []
  reported := ∅

/-- The paths that are reported now, beside those reported before. -/
def report (fs : FileStore) (reported : AList fun _ : String => Option Bytes) (out : List FileOut) :
    AList fun _ : String => Option Bytes :=
  (out.filterMap FileOut.received).foldl
    (fun known e => known.insert e.2 (Receiver.contents fs e.2)) reported

def step (crypto : Crypto) (s : Downloads) (l : Payload × IoPlan) : Option Downloads :=
  (s.files.handle crypto (watched (diskOps l.2)) (s.fs, s.acts) l.1).map fun r =>
    { files := r.1, fs := r.2.1.1, acts := r.2.1.2, reported := report r.2.1.1 s.reported r.2.2 }

/-- The directory may hold anything at first. -/
def machine (crypto : Crypto) (downloadDir : String) : Machine Downloads (Payload × IoPlan) where
  init s := ∃ fs, s = start downloadDir fs
  step := step crypto

/-- Every call so far kept to the download directory. -/
def Within (dir : String) (s : Downloads) : Prop := ∀ act, act ∈ s.acts → act.Within dir

section
variable {crypto : Crypto} {dir : String} {s s' : Downloads} {l : Payload × IoPlan}

theorem within_step (stepped : (machine crypto dir).step s l = some s')
    (h : s.files.Confined dir ∧ s.Within dir) : s'.files.Confined dir ∧ s'.Within dir := by
  obtain ⟨r, handled, rfl⟩ := Option.map_eq_some_iff.mp stepped
  obtain ⟨t', d', out⟩ := r
  exact handled_within (handle_cases handled) h.1 h.2

theorem within_run (h : (machine crypto dir).Reachable s) : s.files.Confined dir ∧ s.Within dir := by
  refine h.invariant (I := fun s => s.files.Confined dir ∧ s.Within dir) ?_ ?_
  · rintro s ⟨fs, rfl⟩
    refine ⟨⟨rfl, fun id st known => ?_⟩, fun act member => ?_⟩
    · cases known
    · cases member
  · intro s l s' before stepped
    exact within_step stepped before

end

end Downloads
end ReachMyDevice
