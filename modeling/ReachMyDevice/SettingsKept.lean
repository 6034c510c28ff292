import ReachMyDevice.IdentityReload
import ReachMyDevice.Lib.Slots
import ReachMyDevice.SettingsWriters

/-!
# No settings are lost

What is stored is what the completed edits make of the settings that were there
first, in the order of the lock.
-/
namespace ReachMyDevice
open Machines FileSystem

/-- What loading the file gives, as it is. -/
def SettingsWorld.stored (codec : SettingsCodec) (w : SettingsWorld) :
    Except SettingsError SettingsMap :=
  match w.fs.names .settings with
  | none => .ok ∅
  | some inode => codec.decrypt (w.fs.data inode)

theorem SettingsWorld.stored_named {codec : SettingsCodec} {w : SettingsWorld} {inode : Nat}
    (named : w.fs.names .settings = some inode) :
    w.stored codec = codec.decrypt (w.fs.data inode) := by
  rw [stored, named]

/-- A task with the number of its call. -/
abbrev Edit := Nat × SettingsTask

/-- A run, with what was stored first, the calls that have had the lock and the edits that are
completed, newest first, and the edits that were completed when a call opened the file. -/
structure SettingsHistory where
  world : SettingsWorld
  initial : Except SettingsError SettingsMap
  locked : List Nat
  completed : List Edit
  opened : Nat → List Edit

namespace SettingsHistory
variable (codec : SettingsCodec) (h : SettingsHistory)

/-- What a list of edits, newest first, makes of the settings that were there first. -/
def applied (edits : List Edit) : Except SettingsError SettingsMap :=
  edits.foldr (fun edit before => before.map edit.2.applied) h.initial

def observe (i : Nat) (c : SettingsCall) : Option SettingsEvent → SettingsHistory
  | none => h
  | some .locks => { h with locked := i :: h.locked }
  | some .opens => { h with opened := Function.update h.opened i h.completed }
  | some .replaces => { h with completed := (i, c.task) :: h.completed }

/-- What is recorded of a step. -/
def noted : SettingsLabel → SettingsHistory
  | .act i a =>
    match h.world.calls[i]? with
    | some c => h.observe i c (c.event a)
    | none => h
  | _ => h

def machine : Machine SettingsHistory SettingsLabel where
  init h := h.world.calls = [] ∧ h.world.holder = none ∧ h.initial = h.world.stored codec ∧
    h.locked = [] ∧ h.completed = []
  step h l := (h.world.step codec l).map fun world => { h.noted l with world }

/-- What is claimed of the settings: nothing that was completed is lost, and whoever loads them
sees them whole. -/
structure SettingsHold : Prop where
  stored : h.world.stored codec = h.applied h.completed
  ordered : (h.completed.map (·.1)).Sublist h.locked ∧ h.locked.Nodup
  tasks : ∀ i task, (i, task) ∈ h.completed → ∃ c, h.world.calls[i]? = some c ∧ c.task = task
  /-- A save that has returned is completed, and loading gives what was saved. -/
  saved : ∀ i c map, h.world.calls[i]? = some c → c.phase = .returned (.ok (some map)) →
    (i, c.task) ∈ h.completed ∧
      (h.completed.head? = some (i, c.task) → h.world.stored codec = .ok map)
  /-- What was loaded was the whole of what was stored when the file was opened. -/
  seen : ∀ i c r, h.world.calls[i]? = some c → c.loaded = some r →
    r = h.applied (h.opened i) ∧ h.opened i <:+ h.completed

end SettingsHistory

/-! ## What is known of a call -/

/-- The temporary file of a stage is not the file of the settings, and holds what was written. -/
def SaveStage.Fits (fs : Fs SettingsName UInt8) (blob : Bytes) : SaveStage → Prop
  | .createDir | .createTemp => True
  | .write tmp handle rest =>
    fs.names (.temp tmp) = some handle.inode ∧ fs.names .settings ≠ some handle.inode ∧
      handle.cursor = (fs.data handle.inode).length ∧ fs.data handle.inode ++ rest = blob
  | .sync tmp | .restrict tmp | .rename tmp =>
    ∃ inode, fs.names (.temp tmp) = some inode ∧ fs.names .settings ≠ some inode ∧
      fs.data inode = blob

namespace SettingsPhase

/-- A call is between the lock and its return. -/
def busy : SettingsPhase → Bool
  | .locking | .waiting | .returned _ | .died => false
  | _ => true

def early : SettingsPhase → Bool
  | .locking | .waiting => true
  | _ => false

/-- A call has saved this. -/
def saved : SettingsPhase → Option SettingsMap
  | .syncingDir map | .unlocking (.ok (some map)) | .returned (.ok (some map)) => some map
  | _ => none

def reads : SettingsPhase → Bool
  | .opening | .reading .. => true
  | _ => false

end SettingsPhase

namespace SettingsWorld
variable (w : SettingsWorld)

/-- Nobody is reading a file. -/
def Unread (inode : Nat) : Prop :=
  ∀ (j : Nat) (d : SettingsCall) handle got, w.calls[j]? = some d → d.phase = .reading handle got →
    handle.inode ≠ inode

/-- All that a step of a call can do. -/
inductive Moves (codec : SettingsCodec) (i : Nat) (c : SettingsCall) :
    Option SettingsEvent → SettingsWorld → Prop
  | waits (phase : c.phase = .locking) : Moves codec i c none (w.goTo i c .waiting)
  | refused (phase : c.phase.early = true) : Moves codec i c none (w.goTo i c (.returned (.error .io)))
  | locks (phase : c.phase = .waiting) (free : w.holder = none) :
      Moves codec i c (some .locks) (({ w with holder := some i } : SettingsWorld).goTo i c .opening)
  | missing (phase : c.phase = .opening) (nothing : w.fs.names .settings = none) :
      Moves codec i c (some .opens) (w.loads i c (.ok ∅))
  | opens (phase : c.phase = .opening) (inode : Nat) (named : w.fs.names .settings = some inode) :
      Moves codec i c (some .opens) (w.goTo i c (.reading ⟨inode, 0⟩ []))
  | reads (handle : Handle) (got : Bytes) (phase : c.phase = .reading handle got) (n : Nat) :
      Moves codec i c none (w.goTo i c (.reading
        { handle with cursor := handle.cursor + (w.fs.readAt handle n).length }
        (got ++ w.fs.readAt handle n)))
  | loads (handle : Handle) (got : Bytes) (phase : c.phase = .reading handle got)
      (whole : (w.fs.data handle.inode).length ≤ handle.cursor) :
      Moves codec i c none (w.loads i c (codec.decrypt got))
  | seals (map : SettingsMap) (phase : c.phase = .sealing map) (nonce blob : Bytes)
      (nonceLen : nonce.length = settingsNonceLen) (sealed_ : codec.encrypt map nonce = .ok blob) :
      Moves codec i c none (w.goTo i c (.writing map blob .createDir))
  | goesOn (map : SettingsMap) (blob : Bytes) (stage stage' : SaveStage)
      (phase : c.phase = .writing map blob stage) (fits : stage.Fits w.fs blob → stage'.Fits w.fs blob)
      (still : ∀ tmp handle rest, stage' ≠ .write tmp handle rest) :
      Moves codec i c none (w.goTo i c (.writing map blob stage'))
  | creates (map : SettingsMap) (blob : Bytes) (phase : c.phase = .writing map blob .createTemp)
      (tmp : TempName) (counters : Nat → Nat) (fresh : w.fs.names (.temp tmp) = none) :
      Moves codec i c none
        (({ w with counters, fs := (w.fs.openWrite (.temp tmp)).1 } : SettingsWorld).goTo i c
          (.writing map blob (.write tmp (w.fs.openWrite (.temp tmp)).2 blob)))
  | puts (map : SettingsMap) (blob : Bytes) (tmp : TempName) (handle : Handle) (rest : Bytes)
      (phase : c.phase = .writing map blob (.write tmp handle rest)) (n : Nat) :
      Moves codec i c none
        (({ w with fs := w.fs.write 0 handle (rest.take n) } : SettingsWorld).goTo i c
          (.writing map blob (.write tmp
            { handle with cursor := handle.cursor + (rest.take n).length } (rest.drop n))))
  | replaces (map : SettingsMap) (blob : Bytes) (tmp : TempName)
      (phase : c.phase = .writing map blob (.rename tmp)) (fs : Fs SettingsName UInt8)
      (renamed : w.fs.rename (.temp tmp) .settings = some fs) :
      Moves codec i c (some .replaces) (({ w with fs } : SettingsWorld).goTo i c (.syncingDir map))
  | cleans (map : SettingsMap) (blob : Bytes) (stage : SaveStage)
      (phase : c.phase = .writing map blob stage) (tmp : TempName) (counters : Nat → Nat) :
      Moves codec i c none (({ w with counters } : SettingsWorld).goTo i c (.cleaning tmp))
  | removes (tmp : TempName) (phase : c.phase = .cleaning tmp) :
      Moves codec i c none
        (({ w with fs := w.fs.remove (.temp tmp) } : SettingsWorld).finish i c (.error .io))
  | fails (e : SettingsError) (busy : c.phase.busy = true) :
      Moves codec i c none (w.finish i c (.error e))
  | synced (map : SettingsMap) (phase : c.phase = .syncingDir map) :
      Moves codec i c none (w.finish i c (.ok (some map)))
  | unlocks (r : SettingsResult) (phase : c.phase = .unlocking r) :
      Moves codec i c none (({ w with holder := none } : SettingsWorld).goTo i c (.returned r))

variable {w} {codec : SettingsCodec} {i : Nat} {c : SettingsCall} {w' : SettingsWorld}

theorem write_cases {map : SettingsMap} {blob : Bytes} {stage : SaveStage} {a : SettingsAct}
    (phase : c.phase = .writing map blob stage) (stepped : w.write i c map blob stage a = some w') :
    w.Moves codec i c (c.event a) w' := by
  have busy : c.phase.busy = true := by rw [phase]; rfl
  unfold write at stepped
  split at stepped
  · cases stepped
    rw [SettingsCall.event, phase]
    exact .goesOn map blob _ _ phase id nofun
  · cases stepped
    exact .fails _ busy
  · rw [SettingsCall.event, phase]
    simp only at stepped
    split at stepped
    · cases stepped
      exact .cleans map blob _ phase _ _
    · rename_i fresh
      cases stepped
      exact .creates map blob phase _ _ (Option.not_isSome_iff_eq_none.mp fresh)
  · cases stepped
    exact .cleans map blob _ phase _ _
  · cases stepped
    exact .puts map blob _ _ _ phase _
  · cases stepped
    rw [SettingsCall.event, phase]
    refine .goesOn map blob _ _ phase ?_ nofun
    rintro ⟨named, apart, -, same⟩
    exact ⟨_, named, apart, (List.append_nil _).symm.trans same⟩
  · cases stepped
    rw [SettingsCall.event, phase]
    exact .goesOn map blob _ _ phase id nofun
  · cases stepped
    rw [SettingsCall.event, phase]
    exact .goesOn map blob _ _ phase id nofun
  · cases stepped
    exact .fails _ busy
  · obtain ⟨fs, renamed, rfl⟩ := Option.map_eq_some_iff.mp stepped
    rw [SettingsCall.event, phase]
    exact .replaces map blob _ phase fs renamed
  · cases stepped
    exact .cleans map blob _ phase _ w.counters
  · cases stepped
    exact .cleans map blob _ phase _ w.counters
  · cases stepped
    exact .cleans map blob _ phase _ w.counters
  · cases stepped

theorem proceed_cases {a : SettingsAct} (stepped : w.proceed codec i c a = some w') :
    w.Moves codec i c (c.event a) w' := by
  unfold proceed at stepped
  split at stepped
  · rename_i phase
    cases stepped
    rw [SettingsCall.event, phase]
    exact .waits phase
  · rename_i phase
    obtain ⟨free, eq⟩ := Option.ite_none_right_eq_some.mp stepped
    cases eq
    rw [SettingsCall.event, phase]
    exact .locks phase free
  · rename_i phase
    cases stepped
    exact .refused (by rw [phase]; rfl)
  · rename_i phase
    cases stepped
    exact .refused (by rw [phase]; rfl)
  · rename_i phase
    rw [SettingsCall.event, phase]
    split at stepped
    · rename_i nothing
      cases stepped
      exact .missing phase (Option.map_eq_none_iff.mp nothing)
    · rename_i handle found
      obtain ⟨inode, named, rfl⟩ := Option.map_eq_some_iff.mp found
      cases stepped
      exact .opens phase inode named
  · rename_i handle got n phase
    obtain ⟨-, eq⟩ := Option.ite_none_left_eq_some.mp stepped
    cases eq
    exact .reads handle got phase n
  · rename_i handle got phase
    obtain ⟨whole, eq⟩ := Option.ite_none_right_eq_some.mp stepped
    cases eq
    rw [SettingsCall.event, phase]
    exact .loads handle got phase whole
  · rename_i phase
    cases stepped
    exact .fails _ (by rw [phase]; rfl)
  · rename_i phase
    cases stepped
    exact .fails _ (by rw [phase]; rfl)
  · rename_i map nonce phase
    obtain ⟨nonceLen, eq⟩ := Option.ite_none_right_eq_some.mp stepped
    split at eq
    · rename_i blob sealed_
      cases eq
      exact .seals map phase nonce blob nonceLen sealed_
    · cases eq
      exact .fails _ (by rw [phase]; rfl)
  · rename_i phase
    cases stepped
    exact .fails _ (by rw [phase]; rfl)
  · rename_i map blob stage phase
    exact write_cases phase stepped
  · rename_i tmp phase
    cases stepped
    rw [SettingsCall.event, phase]
    exact .removes tmp phase
  · rename_i phase
    cases stepped
    exact .fails _ (by rw [phase]; rfl)
  · rename_i map phase
    cases stepped
    rw [SettingsCall.event, phase]
    exact .synced map phase
  · rename_i map phase
    cases stepped
    exact .synced map phase
  · rename_i r phase
    cases stepped
    rw [SettingsCall.event, phase]
    exact .unlocks r phase
  · cases stepped

end SettingsWorld

namespace SettingsHistory
variable (codec : SettingsCodec) (h : SettingsHistory)

/-- The call was the last to take the lock, and has not completed its edit. -/
def Turn (i : Nat) : Prop :=
  ∃ earlier, h.locked = i :: earlier ∧ (h.completed.map (·.1)).Sublist earlier

/-- What is true of a call that has the lock. -/
def Fits (i : Nat) (task : SettingsTask) : SettingsPhase → Prop
  | .opening => h.Turn i
  | .reading _ _ => h.Turn i ∧ h.opened i = h.completed
  | .sealing map => h.Turn i ∧ h.applied ((i, task) :: h.completed) = .ok map
  | .writing map blob stage =>
    h.Turn i ∧ h.applied ((i, task) :: h.completed) = .ok map ∧ codec.decrypt blob = .ok map ∧
      stage.Fits h.world.fs blob ∧
        ∀ tmp handle rest, stage = .write tmp handle rest → h.world.Unread handle.inode
  | _ => True

structure Knows (i : Nat) (c : SettingsCall) : Prop where
  early : c.phase.early = true → i ∉ h.locked
  unread : c.phase.early = true ∨ c.phase.reads = true → c.loaded = none
  loaded : ∀ r, c.loaded = some r → r = h.applied (h.opened i) ∧ h.opened i <:+ h.completed
  reading : ∀ handle got, c.phase = .reading handle got → h.opened i <:+ h.completed ∧
    handle.inode < h.world.fs.next ∧ got = (h.world.fs.data handle.inode).take handle.cursor ∧
      codec.decrypt (h.world.fs.data handle.inode) = h.applied (h.opened i)
  saved : ∀ map, c.phase.saved = some map → ∃ earlier, (i, c.task) :: earlier <:+ h.completed ∧
    h.applied ((i, c.task) :: earlier) = .ok map

/-- A call without the lock only reads. -/
def Works (i : Nat) (c : SettingsCall) : Prop :=
  c.phase.busy = true → c.task.takesLock = false ∧ c.phase.reads = true ∨
    h.world.holder = some i ∧ h.Fits codec i c.task c.phase

structure Kept : Prop where
  stored : h.world.stored codec = h.applied h.completed
  order : (h.completed.map (·.1)).Sublist h.locked
  once : h.locked.Nodup
  known : ∀ i ∈ h.locked, i < h.world.calls.length
  tasks : ∀ i task, (i, task) ∈ h.completed → ∃ c, h.world.calls[i]? = some c ∧ c.task = task
  knows : ∀ i c, h.world.calls[i]? = some c → h.Knows codec i c
  works : ∀ i c, h.world.calls[i]? = some c → h.Works codec i c

variable {codec h}

theorem Kept.hold (k : h.Kept codec) : h.SettingsHold codec := by
  refine ⟨k.stored, ⟨k.order, k.once⟩, k.tasks, fun i c map found phase => ?_,
    fun i c r found => (k.knows i c found).loaded r⟩
  obtain ⟨earlier, done, result⟩ := (k.knows i c found).saved map (by rw [phase]; rfl)
  refine ⟨done.subset List.mem_cons_self, fun newest => ?_⟩
  -- A call completes one edit.
  have same : (i, c.task) :: earlier = h.completed := by
    refine done.eq_of_length ?_
    obtain ⟨later, eq⟩ := done
    cases later with
    | nil => exact congrArg List.length eq
    | cons e later =>
        have nodup := k.order.nodup k.once
        rw [← eq] at newest nodup
        cases newest
        simp at nodup
  rw [k.stored, ← same]
  exact result

/-! ## What a step keeps -/

section
variable {i j : Nat} {c c' d : SettingsCall} {h' : SettingsHistory}

theorem applied_congr (initial : h'.initial = h.initial) (edits : List Edit) :
    h'.applied edits = h.applied edits := by
  rw [applied, applied, initial]

/-- What is known of a call stays known, while the file that it reads stays as it is. -/
theorem Knows.frame (knows : h.Knows codec j d) (initial : h'.initial = h.initial)
    (locked : j ∈ h'.locked → j ∈ h.locked) (opened : h'.opened j = h.opened j)
    (completed : h.completed <:+ h'.completed) (grows : h.world.fs.next ≤ h'.world.fs.next)
    (data : ∀ handle got, d.phase = .reading handle got → handle.inode < h.world.fs.next →
      h'.world.fs.data handle.inode = h.world.fs.data handle.inode) : h'.Knows codec j d where
  early phase member := knows.early phase (locked member)
  unread := knows.unread
  loaded r loaded := by
    obtain ⟨same, older⟩ := knows.loaded r loaded
    rw [opened, applied_congr initial]
    exact ⟨same, older.trans completed⟩
  reading handle got phase := by
    obtain ⟨older, inside, read, opens⟩ := knows.reading handle got phase
    rw [opened, applied_congr initial, data handle got phase inside]
    exact ⟨older.trans completed, Nat.lt_of_lt_of_le inside grows, read, opens⟩
  saved map saved := by
    obtain ⟨earlier, done, result⟩ := knows.saved map saved
    rw [← applied_congr initial] at result
    exact ⟨earlier, done.trans completed, result⟩

/-- What is true of a call with the lock stays true, while nobody opens the file it writes. -/
theorem fits_frame {task : SettingsTask} {phase : SettingsPhase} (fits : h.Fits codec j task phase)
    (fs : h'.world.fs = h.world.fs) (initial : h'.initial = h.initial)
    (locked : h'.locked = h.locked) (completed : h'.completed = h.completed)
    (opened : h'.opened j = h.opened j)
    (unread : ∀ inode, h.world.fs.names .settings ≠ some inode → h.world.Unread inode →
      h'.world.Unread inode) : h'.Fits codec j task phase := by
  have applied_ := applied_congr initial
  cases phase with
  | opening =>
      simp only [Fits, Turn, locked, completed] at fits ⊢
      exact fits
  | reading handle got =>
      simp only [Fits, Turn, locked, completed, opened] at fits ⊢
      exact fits
  | sealing map =>
      simp only [Fits, Turn, locked, completed, applied_] at fits ⊢
      exact fits
  | writing map blob stage =>
      obtain ⟨turn, edits, opens, stageFits, quiet⟩ := fits
      rw [Fits, Turn, locked, completed, applied_, fs]
      refine ⟨turn, edits, opens, stageFits, fun tmp handle rest writes => ?_⟩
      rw [writes] at stageFits
      exact unread handle.inode stageFits.2.1 (quiet tmp handle rest writes)
  | _ => trivial

/-- A step of one call that changes no file, and no lock. -/
structure Outside (i : Nat) (c' : SettingsCall) (h h' : SettingsHistory) : Prop where
  calls : h'.world.calls = h.world.calls.set i c'
  fs : h'.world.fs = h.world.fs
  holder : h'.world.holder = h.world.holder
  initial : h'.initial = h.initial
  locked : h'.locked = h.locked
  completed : h'.completed = h.completed
  opened : ∀ j, j ≠ i → h'.opened j = h.opened j

theorem Kept.outside (k : h.Kept codec) (found : h.world.calls[i]? = some c)
    (o : Outside i c' h h') (task : c'.task = c.task)
    (apart : ∀ handle got, c'.phase = .reading handle got →
      h.world.fs.names .settings = some handle.inode ∨
        ∃ handle₀ got₀, c.phase = .reading handle₀ got₀ ∧ handle.inode = handle₀.inode)
    (knows : h'.Knows codec i c') (works : h'.Works codec i c') : h'.Kept codec := by
  obtain ⟨calls, fs, holder, initial, locked, completed, opened⟩ := o
  have applied_ := applied_congr initial
  -- A file that is being written is not the file of the settings.
  have unread : ∀ inode, h.world.fs.names .settings ≠ some inode → h.world.Unread inode →
      h'.world.Unread inode := by
    intro inode other unread j d handle got found' phase
    rw [calls] at found'
    obtain ⟨rfl, rfl⟩ | ⟨-, old⟩ := Slots.getElem?_set_cases found'
    · obtain named | ⟨handle₀, got₀, phase₀, same⟩ := apart handle got phase
      · rintro rfl
        exact other named
      · rw [same]
        exact unread j c handle₀ got₀ found phase₀
    · exact unread j d handle got old phase
  refine ⟨?_, ?_, ?_, ?_, ?_, ?_, ?_⟩
  · rw [SettingsWorld.stored, fs, completed, applied_]
    exact k.stored
  · rw [completed, locked]
    exact k.order
  · rw [locked]
    exact k.once
  · rw [locked, calls, List.length_set]
    exact k.known
  · intro j task' done
    rw [completed] at done
    obtain ⟨d, found', rfl⟩ := k.tasks j task' done
    rw [calls, List.getElem?_set]
    split
    · rename_i same
      subst same
      obtain rfl := Option.some.inj (found.symm.trans found')
      rw [if_pos (List.getElem?_eq_some_iff.mp found).1]
      exact ⟨c', rfl, task⟩
    · exact ⟨d, found', rfl⟩
  · intro j d found'
    rw [calls] at found'
    obtain ⟨rfl, rfl⟩ | ⟨other, old⟩ := Slots.getElem?_set_cases found'
    · exact knows
    · exact (k.knows j d old).frame initial (locked ▸ id) (opened j other)
        (completed ▸ List.suffix_refl _) (fs ▸ Nat.le_refl _) fun _ _ _ _ => by rw [fs]
  · intro j d found' busy
    rw [calls] at found'
    obtain ⟨rfl, rfl⟩ | ⟨other, old⟩ := Slots.getElem?_set_cases found'
    · exact works busy
    · obtain reads | ⟨mine, fits⟩ := k.works j d old busy
      · exact .inl reads
      · refine .inr ⟨holder.trans mine, ?_⟩
        exact fits_frame fits fs initial locked completed (opened j other) unread

/-- A step of the one call that has the lock, or takes it. -/
theorem Kept.inside (k : h.Kept codec) (found : h.world.calls[i]? = some c)
    (calls : h'.world.calls = h.world.calls.set i c') (task : c'.task = c.task)
    (initial : h'.initial = h.initial) (opened : h'.opened = h.opened)
    (alone : ∀ j, j ≠ i → h.world.holder ≠ some j) (locked : ∀ j ∈ h'.locked, j = i ∨ j ∈ h.locked)
    (completed : h'.completed = h.completed ∨ h'.completed = (i, c.task) :: h.completed)
    (grows : h.world.fs.next ≤ h'.world.fs.next)
    (data : ∀ inode, inode < h.world.fs.next → h.world.Unread inode ∨
      h'.world.fs.data inode = h.world.fs.data inode)
    (stored : h'.world.stored codec = h'.applied h'.completed)
    (order : (h'.completed.map (·.1)).Sublist h'.locked) (once : h'.locked.Nodup)
    (knows : h'.Knows codec i c') (works : h'.Works codec i c') : h'.Kept codec := by
  have inside := (List.getElem?_eq_some_iff.mp found).1
  have longer : h.completed <:+ h'.completed := by
    obtain same | more := completed
    · simp only [same, List.suffix_refl]
    · rw [more]
      exact List.suffix_cons ..
  refine ⟨stored, order, once, fun j member => ?_, fun j task' done => ?_, fun j d found' => ?_,
    fun j d found' busy => ?_⟩
  · rw [calls, List.length_set]
    obtain rfl | old := locked j member
    · exact inside
    · exact k.known j old
  · have old : (j, task') = (i, c.task) ∨ (j, task') ∈ h.completed := by
      obtain same | more := completed
      · exact .inr (same ▸ done)
      · exact List.mem_cons.mp (more ▸ done)
    rw [calls]
    obtain same | done := old
    · obtain ⟨rfl, rfl⟩ := Prod.mk.inj same
      exact ⟨c', List.getElem?_set_self inside, task⟩
    · obtain ⟨d, found', rfl⟩ := k.tasks j task' done
      by_cases same : j = i
      · subst same
        obtain rfl := Option.some.inj (found.symm.trans found')
        exact ⟨c', List.getElem?_set_self inside, task⟩
      · exact ⟨d, (List.getElem?_set_ne (Ne.symm same)).trans found', rfl⟩
  · rw [calls] at found'
    obtain ⟨rfl, rfl⟩ | ⟨other, old⟩ := Slots.getElem?_set_cases found'
    · exact knows
    · refine (k.knows j d old).frame initial (fun member => (locked j member).resolve_left other)
        (congrFun opened j) longer grows fun handle got phase used => ?_
      exact (data handle.inode used).resolve_left fun unread => unread j d handle got old phase rfl
  · rw [calls] at found'
    obtain ⟨rfl, rfl⟩ | ⟨other, old⟩ := Slots.getElem?_set_cases found'
    · exact works busy
    · obtain reads | ⟨mine, -⟩ := k.works j d old busy
      · exact .inl reads
      · exact absurd mine (alone j other)

theorem not_reading {phase : SettingsPhase} (reads : phase.reads = false) (handle : Handle)
    (got : Bytes) : phase ≠ .reading handle got := by
  rintro rfl
  cases reads

/-- A phase that is neither early nor reading, and in which no more is saved than before. -/
structure Later (c : SettingsCall) (phase : SettingsPhase) : Prop where
  early : phase.early = false
  reads : phase.reads = false
  saved : ∀ map, phase.saved = some map → c.phase.saved = some map

theorem Knows.goTo (knows : h.Knows codec i c) {phase : SettingsPhase} (later : Later c phase) :
    h.Knows codec i { c with phase } where
  early now := by
    cases later.early.symm.trans now
  unread now := by
    obtain now | now := now
    · cases later.early.symm.trans now
    · cases later.reads.symm.trans now
  loaded := knows.loaded
  reading handle got now := absurd now (not_reading later.reads handle got)
  saved map now := knows.saved map (later.saved map now)

/-- A call goes on, and the file is as it was. -/
theorem Kept.goTo (k : h.Kept codec) (found : h.world.calls[i]? = some c) {phase : SettingsPhase}
    (counters : Nat → Nat) (later : Later c phase) (works : h.Works codec i { c with phase }) :
    Kept codec { h with world := ({ h.world with counters } : SettingsWorld).goTo i c phase } := by
  have knows := (k.knows i c found).goTo later
  have o : Outside i { c with phase } h
      { h with world := ({ h.world with counters } : SettingsWorld).goTo i c phase } :=
    ⟨rfl, rfl, rfl, rfl, rfl, rfl, fun _ _ => rfl⟩
  refine k.outside found o rfl (fun handle got now => absurd now (not_reading later.reads handle got))
    (knows.frame rfl id rfl (List.suffix_refl _) (Nat.le_refl _) fun _ _ _ _ => rfl) fun busy => ?_
  obtain free | ⟨mine, fits⟩ := works busy
  · exact .inl free
  · refine .inr ⟨mine, fits_frame fits rfl rfl rfl rfl rfl fun inode _ unread => ?_⟩
    intro j d handle got found' now
    obtain ⟨rfl, rfl⟩ | ⟨-, old⟩ := Slots.getElem?_set_cases found'
    · exact absurd now (not_reading later.reads handle got)
    · exact unread j d handle got old now

theorem saved_unlocking (r : SettingsResult) :
    (SettingsPhase.unlocking r).saved = (SettingsPhase.returned r).saved := by
  cases r with
  | error e => rfl
  | ok saved => cases saved <;> rfl

theorem finished_saved (task : SettingsTask) (r : SettingsResult) :
    (task.finished r).saved = (SettingsPhase.returned r).saved := by
  unfold SettingsTask.finished
  split
  · exact saved_unlocking r
  · rfl

theorem finished_later {task : SettingsTask} {r : SettingsResult}
    (saved : ∀ map, (SettingsPhase.returned r).saved = some map → c.phase.saved = some map) :
    Later c (task.finished r) := by
  refine ⟨?_, ?_, fun map now => saved map (finished_saved task r ▸ now)⟩
  · unfold SettingsTask.finished
    split <;> rfl
  · unfold SettingsTask.finished
    split <;> rfl

/-- A call that has the lock while it is busy lets it go in the end. -/
theorem works_finished (mine : d.task.takesLock = true → h'.world.holder = some i)
    {r : SettingsResult} (phase : d.phase = d.task.finished r) : h'.Works codec i d := by
  intro busy
  rw [phase] at busy ⊢
  cases lock : d.task.takesLock with
  | false =>
      rw [SettingsTask.finished, lock] at busy
      cases busy
  | true =>
      refine .inr ⟨mine lock, ?_⟩
      rw [SettingsTask.finished, lock]
      trivial

theorem Kept.holder (k : h.Kept codec) (found : h.world.calls[i]? = some c)
    (busy : c.phase.busy = true) (lock : c.task.takesLock = true) : h.world.holder = some i := by
  obtain ⟨free, -⟩ | ⟨mine, -⟩ := k.works i c found busy
  · rw [lock] at free
    cases free
  · exact mine

theorem Kept.finish (k : h.Kept codec) (found : h.world.calls[i]? = some c)
    (busy : c.phase.busy = true) (r : SettingsResult)
    (saved : ∀ map, (SettingsPhase.returned r).saved = some map → c.phase.saved = some map) :
    Kept codec { h with world := h.world.finish i c r } := by
  have mine := k.holder found busy
  exact k.goTo found h.world.counters (finished_later saved) (works_finished mine rfl)

theorem takesLock_of_edit {task : SettingsTask} {map map' : SettingsMap}
    (edits : task.edit map = .ok (some map')) : task.takesLock = true := by
  cases task with
  | start => cases edits
  | _ => rfl

theorem applied_of_edit {task : SettingsTask} {map map' : SettingsMap}
    (edits : task.edit map = .ok (some map')) : task.applied map = map' := by
  rw [SettingsTask.applied, edits]

/-- What a call goes on to do with what it has loaded. -/
theorem loads_cases (task : SettingsTask) (r : Except SettingsError SettingsMap) :
    (∃ result, task.loads r = task.finished result ∧ (SettingsPhase.returned result).saved = none) ∨
      ∃ map map', r = .ok map ∧ task.edit map = .ok (some map') ∧ task.loads r = .sealing map' := by
  unfold SettingsTask.loads
  cases r with
  | error e => exact .inl ⟨.error e, rfl, rfl⟩
  | ok map =>
      cases edits : task.edit map with
      | error e =>
          refine .inl ⟨.error e, ?_, rfl⟩
          simp only [Except.bind, edits]
      | ok saved =>
          cases saved with
          | none =>
              refine .inl ⟨.ok none, ?_, rfl⟩
              simp only [Except.bind, edits]
          | some map' =>
              refine .inr ⟨map, map', rfl, edits, ?_⟩
              simp only [Except.bind, edits]

/-- A call has loaded what was stored when it opened the file. -/
theorem Kept.loads (k : h.Kept codec) (found : h.world.calls[i]? = some c)
    (busy : c.phase.busy = true) (opened : Nat → List Edit)
    (others : ∀ j, j ≠ i → opened j = h.opened j) (older : opened i <:+ h.completed)
    (turn : c.task.takesLock = true → h.Turn i ∧ opened i = h.completed)
    {r : Except SettingsError SettingsMap} (whole : r = h.applied (opened i)) :
    Kept codec { h with world := h.world.loads i c r, opened } := by
  have mine := k.holder found busy
  have o : Outside i { c with loaded := some r, phase := c.task.loads r } h
      { h with world := h.world.loads i c r, opened } :=
    ⟨rfl, rfl, rfl, rfl, rfl, rfl, others⟩
  have loaded : ∀ r', some r = some r' → r' = h.applied (opened i) ∧ opened i <:+ h.completed := by
    rintro _ ⟨⟩
    exact ⟨whole, older⟩
  obtain ⟨result, goes, saved⟩ | ⟨map, map', rfl, edits, goes⟩ := loads_cases c.task r
  · have later : Later c (c.task.finished result) :=
      finished_later fun map now => nomatch saved.symm.trans now
    rw [goes] at o
    refine k.outside found o rfl (fun handle got now => absurd now (not_reading later.reads handle got)) ?_ ?_
    · refine ⟨fun now => ?_, fun now => ?_, loaded,
        fun handle got now => absurd now (not_reading later.reads handle got), fun map now => ?_⟩
      · cases later.early.symm.trans now
      · obtain now | now := now
        · cases later.early.symm.trans now
        · cases later.reads.symm.trans now
      · cases ((finished_saved _ _).trans saved).symm.trans now
    · exact works_finished mine rfl
  · have lock := takesLock_of_edit edits
    obtain ⟨turn, current⟩ := turn lock
    rw [goes] at o
    refine k.outside found o rfl (fun _ _ => nofun)
      ⟨nofun, fun now => now.elim nofun nofun, loaded, fun _ _ => nofun, fun _ => nofun⟩
      fun _ => .inr ⟨mine lock, turn, ?_⟩
    show (h.applied h.completed).map c.task.applied = _
    rw [← current, ← whole, Except.map, applied_of_edit edits]

/-- A call that saves has the lock. -/
theorem Kept.mine (k : h.Kept codec) (found : h.world.calls[i]? = some c)
    (busy : c.phase.busy = true) (reads : c.phase.reads = false) :
    h.world.holder = some i ∧ h.Fits codec i c.task c.phase := by
  obtain ⟨-, free⟩ | mine := k.works i c found busy
  · cases reads.symm.trans free
  · exact mine

theorem Kept.turn (k : h.Kept codec) (found : h.world.calls[i]? = some c)
    (busy : c.phase.busy = true) (lock : c.task.takesLock = true) :
    h.world.holder = some i ∧ h.Fits codec i c.task c.phase := by
  obtain ⟨free, -⟩ | mine := k.works i c found busy
  · cases lock.symm.trans free
  · exact mine

theorem alone_of_holder (mine : h.world.holder = some i) (j : Nat) (other : j ≠ i) :
    h.world.holder ≠ some j := by
  rw [mine]
  rintro ⟨⟩
  exact other rfl

/-- The file of the settings is not the temporary one, whose content is changed. -/
theorem stored_congr {w' : SettingsWorld} (names : w'.fs.names .settings = h.world.fs.names .settings)
    (data : ∀ inode, h.world.fs.names .settings = some inode →
      w'.fs.data inode = h.world.fs.data inode) : w'.stored codec = h.world.stored codec := by
  rw [SettingsWorld.stored, SettingsWorld.stored, names]
  cases named : h.world.fs.names .settings with
  | none => rfl
  | some inode => simp only [data inode named]

theorem Kept.opens (k : h.Kept codec) (found : h.world.calls[i]? = some c)
    (phase : c.phase = .opening) {inode : Nat} (named : h.world.fs.names .settings = some inode) :
    Kept codec { h.observe i c (some .opens) with
      world := h.world.goTo i c (.reading ⟨inode, 0⟩ []) } := by
  have opened : Function.update h.opened i h.completed i = h.completed := Function.update_self ..
  have content : codec.decrypt (h.world.fs.data inode) = h.applied h.completed := by
    rw [← k.stored, SettingsWorld.stored_named named]
  have knows := k.knows i c found
  have unread := knows.unread (.inr (by rw [phase]; rfl))
  refine k.outside found
    ⟨rfl, rfl, rfl, rfl, rfl, rfl, fun j other => Function.update_of_ne other ..⟩ rfl ?_
    ⟨nofun, fun _ => unread, fun r loaded => ?_, ?_, fun _ => nofun⟩ fun _ => ?_
  · rintro _ _ ⟨⟩
    exact .inl named
  · cases unread.symm.trans loaded
  · rintro _ _ ⟨⟩
    refine ⟨?_, h.world.fs.used _ _ named, rfl, ?_⟩
    · exact opened ▸ List.suffix_refl _
    · exact content.trans (congrArg _ opened.symm)
  · obtain reads | ⟨mine, fits⟩ := k.works i c found (by rw [phase]; rfl)
    · exact .inl ⟨reads.1, rfl⟩
    · rw [phase] at fits
      exact .inr ⟨mine, fits, opened⟩

theorem readAt_eq {fs : Fs SettingsName UInt8} (handle : Handle) (n : Nat) :
    (fs.data handle.inode).take handle.cursor ++ fs.readAt handle n =
      (fs.data handle.inode).take (handle.cursor + (fs.readAt handle n).length) := by
  rw [List.take_add, Fs.readAt, List.length_take, ← List.take_take, List.take_length]

theorem Kept.reads (k : h.Kept codec) (found : h.world.calls[i]? = some c) {handle : Handle}
    {got : Bytes} (phase : c.phase = .reading handle got) (n : Nat) :
    Kept codec { h with world := h.world.goTo i c (.reading
      { handle with cursor := handle.cursor + (h.world.fs.readAt handle n).length }
      (got ++ h.world.fs.readAt handle n)) } := by
  have knows := k.knows i c found
  obtain ⟨older, inside, rfl, opens⟩ := knows.reading handle got phase
  have reads : c.phase.reads = true := by rw [phase]; rfl
  refine k.outside found ⟨rfl, rfl, rfl, rfl, rfl, rfl, fun _ _ => rfl⟩ rfl ?_
    ⟨nofun, fun _ => knows.unread (.inr reads), knows.loaded, ?_, fun _ => nofun⟩ fun _ => ?_
  · rintro _ _ ⟨⟩
    exact .inr ⟨handle, _, phase, rfl⟩
  · rintro _ _ ⟨⟩
    exact ⟨older, inside, readAt_eq handle n, opens⟩
  · obtain free | ⟨mine, fits⟩ := k.works i c found (by rw [phase]; rfl)
    · exact .inl ⟨free.1, rfl⟩
    · rw [phase] at fits
      exact .inr ⟨mine, fits⟩

theorem Kept.locks (k : h.Kept codec) (found : h.world.calls[i]? = some c)
    (phase : c.phase = .waiting) (free : h.world.holder = none) :
    Kept codec { h.observe i c (some .locks) with
      world := ({ h.world with holder := some i } : SettingsWorld).goTo i c .opening } := by
  have knows := k.knows i c found
  have early : c.phase.early = true := by rw [phase]; rfl
  have fresh := knows.early early
  refine k.inside found rfl rfl rfl rfl ?_ ?_ (.inl rfl) (Nat.le_refl _) (fun _ _ => .inr rfl)
    k.stored (k.order.cons i) (List.nodup_cons.mpr ⟨fresh, k.once⟩)
    ⟨nofun, fun _ => knows.unread (.inl early), knows.loaded, fun _ _ => nofun, fun _ => nofun⟩
    fun _ => .inr ⟨rfl, h.locked, rfl, k.order⟩
  · rw [free]
    exact fun _ _ => nofun
  · exact fun j member => List.mem_cons.mp member

theorem Kept.creates (k : h.Kept codec) (found : h.world.calls[i]? = some c) {map : SettingsMap}
    {blob : Bytes} (phase : c.phase = .writing map blob .createTemp) (tmp : TempName)
    (counters : Nat → Nat) (fresh : h.world.fs.names (.temp tmp) = none) :
    Kept codec { h with
      world := ({ h.world with counters, fs := (h.world.fs.openWrite (.temp tmp)).1 } :
        SettingsWorld).goTo i c
          (.writing map blob (.write tmp (h.world.fs.openWrite (.temp tmp)).2 blob)) } := by
  obtain ⟨mine, fits⟩ := k.mine found (by rw [phase]; rfl) (by rw [phase]; rfl)
  rw [phase] at fits
  obtain ⟨turn, edits, opens, -, -⟩ := fits
  have made := h.world.fs.openWrite_opened (.temp tmp)
  generalize h.world.fs.openWrite (.temp tmp) = out at made ⊢
  obtain ⟨fs, handle⟩ := out
  have place : handle.inode = h.world.fs.next := by
    obtain old | ⟨-, place⟩ := made.before
    · cases fresh.symm.trans old
    · exact place
  have same : fs.names .settings = h.world.fs.names .settings := made.same _ nofun
  have other : ∀ inode, h.world.fs.names .settings = some inode → inode < h.world.fs.next :=
    h.world.fs.used _
  have later : Later c (.writing map blob (.write tmp handle blob)) := ⟨rfl, rfl, fun _ => nofun⟩
  have stageFits : SaveStage.Fits fs blob (.write tmp handle blob) := by
    refine ⟨made.named, ?_, ?_, ?_⟩
    · rw [same, place]
      exact fun named => Nat.lt_irrefl _ (other _ named)
    · rw [made.start, made.fresh fresh]
      rfl
    · rw [made.fresh fresh]
      rfl
  refine k.inside found rfl rfl rfl rfl (alone_of_holder mine) (fun j => .inr) (.inl rfl)
    made.grows (fun inode used => .inr (made.data inode used)) ?_ k.order k.once ?_
    fun _ => .inr ⟨mine, turn, edits, opens, stageFits, ?_⟩
  · exact (stored_congr same fun inode named => made.data inode (other inode named)).trans k.stored
  · exact ((k.knows i c found).goTo later).frame rfl id rfl (List.suffix_refl _) made.grows
      fun _ _ _ used => made.data _ used
  · rintro _ _ _ ⟨⟩ j d handle' got found' now
    obtain ⟨rfl, rfl⟩ | ⟨-, old⟩ := Slots.getElem?_set_cases found'
    · cases now
    · rw [place]
      exact Nat.ne_of_lt ((k.knows j d old).reading handle' got now).2.1

theorem Kept.puts (k : h.Kept codec) (found : h.world.calls[i]? = some c) {map : SettingsMap}
    {blob : Bytes} {tmp : TempName} {handle : Handle} {rest : Bytes}
    (phase : c.phase = .writing map blob (.write tmp handle rest)) (n : Nat) :
    Kept codec { h with
      world := ({ h.world with fs := h.world.fs.write 0 handle (rest.take n) } :
        SettingsWorld).goTo i c (.writing map blob (.write tmp
          { handle with cursor := handle.cursor + (rest.take n).length } (rest.drop n))) } := by
  obtain ⟨mine, fits⟩ := k.mine found (by rw [phase]; rfl) (by rw [phase]; rfl)
  rw [phase] at fits
  obtain ⟨turn, edits, opens, ⟨named, apart, whole, text⟩, quiet⟩ := fits
  have unread := quiet tmp handle rest rfl
  have other : ∀ inode, inode ≠ handle.inode →
      (h.world.fs.write 0 handle (rest.take n)).data inode = h.world.fs.data inode :=
    fun inode ne => h.world.fs.setData_other ne _
  have longer : (h.world.fs.write 0 handle (rest.take n)).data handle.inode =
      h.world.fs.data handle.inode ++ rest.take n := by
    rw [Fs.write, Fs.setData_same, overwrite_inside _ _ (Nat.le_of_eq whole), whole, List.take_length,
      List.drop_eq_nil_of_le (Nat.le_add_right ..), List.append_nil]
  have later : Later c (.writing map blob (.write tmp
      { handle with cursor := handle.cursor + (rest.take n).length } (rest.drop n))) :=
    ⟨rfl, rfl, fun _ => nofun⟩
  have stageFits : SaveStage.Fits (h.world.fs.write 0 handle (rest.take n)) blob (.write tmp
      { handle with cursor := handle.cursor + (rest.take n).length } (rest.drop n)) := by
    refine ⟨named, apart, ?_, ?_⟩
    · rw [longer, List.length_append, whole]
    · rw [longer, List.append_assoc, List.take_append_drop, text]
  refine k.inside found rfl rfl rfl rfl (alone_of_holder mine) (fun j => .inr) (.inl rfl)
    (Nat.le_refl _) (fun inode _ => ?_) ?_ k.order k.once ?_
    fun _ => .inr ⟨mine, turn, edits, opens, stageFits, ?_⟩
  · by_cases same : inode = handle.inode
    · exact .inl (same ▸ unread)
    · exact .inr (other inode same)
  · refine Eq.trans (stored_congr (h := h) ?_ fun inode named => ?_) k.stored
    · rfl
    · refine other inode ?_
      rintro rfl
      exact apart named
  · refine ((k.knows i c found).goTo later).frame rfl id rfl (List.suffix_refl _) (Nat.le_refl _) ?_
    exact fun _ _ => nofun
  · rintro _ _ _ ⟨⟩ j d handle' got found' now
    obtain ⟨rfl, rfl⟩ | ⟨-, old⟩ := Slots.getElem?_set_cases found'
    · cases now
    · exact unread j d handle' got old now

theorem Kept.replaces (k : h.Kept codec) (found : h.world.calls[i]? = some c) {map : SettingsMap}
    {blob : Bytes} {tmp : TempName} (phase : c.phase = .writing map blob (.rename tmp))
    {fs : Fs SettingsName UInt8} (renamed : h.world.fs.rename (.temp tmp) .settings = some fs) :
    Kept codec { h.observe i c (some .replaces) with
      world := ({ h.world with fs } : SettingsWorld).goTo i c (.syncingDir map) } := by
  obtain ⟨mine, fits⟩ := k.mine found (by rw [phase]; rfl) (by rw [phase]; rfl)
  rw [phase] at fits
  obtain ⟨⟨earlier, locked, before⟩, edits, opens, ⟨inode, named, -, text⟩, -⟩ := fits
  obtain ⟨inode', took⟩ := h.world.fs.rename_renamed renamed
  obtain rfl := Option.some.inj (named.symm.trans took.before)
  have knows := k.knows i c found
  refine k.inside found rfl rfl rfl rfl (alone_of_holder mine) (fun j => .inr) (.inr rfl)
    (Nat.le_of_eq took.next.symm) (fun inode _ => .inr (congrFun took.data inode)) ?_ ?_ k.once
    ⟨nofun, fun now => now.elim nofun nofun, fun r loaded => ?_, fun _ _ => nofun, ?_⟩
    fun _ => .inr ⟨mine, trivial⟩
  · show SettingsWorld.stored codec _ = h.applied ((i, c.task) :: h.completed)
    rw [edits, SettingsWorld.stored_named took.after]
    show codec.decrypt (fs.data inode) = _
    rw [took.data, text, opens]
  · show (i :: h.completed.map (·.1)).Sublist h.locked
    rw [locked]
    exact before.cons_cons i
  · obtain ⟨same, older⟩ := knows.loaded r loaded
    exact ⟨same, older.trans (List.suffix_cons ..)⟩
  · rintro _ ⟨⟩
    exact ⟨h.completed, List.suffix_refl _, edits⟩

theorem Kept.removes (k : h.Kept codec) (found : h.world.calls[i]? = some c) {tmp : TempName}
    (phase : c.phase = .cleaning tmp) :
    Kept codec { h with
      world := ({ h.world with fs := h.world.fs.remove (.temp tmp) } :
        SettingsWorld).finish i c (.error .io) } := by
  obtain ⟨mine, -⟩ := k.mine found (by rw [phase]; rfl) (by rw [phase]; rfl)
  have later : Later c (c.task.finished (.error .io)) := finished_later fun _ => nofun
  have same : (h.world.fs.remove (.temp tmp)).names .settings = h.world.fs.names .settings :=
    Fs.remove_other _ nofun
  refine k.inside found rfl rfl rfl rfl (alone_of_holder mine) (fun j => .inr) (.inl rfl)
    (Nat.le_refl _) (fun _ _ => .inr rfl) ?_ k.order k.once ?_ (works_finished (fun _ => mine) rfl)
  · exact (stored_congr same fun _ _ => rfl).trans k.stored
  · exact ((k.knows i c found).goTo later).frame rfl id rfl (List.suffix_refl _) (Nat.le_refl _)
      fun _ _ _ _ => rfl

theorem Kept.unlocks (k : h.Kept codec) (found : h.world.calls[i]? = some c) {r : SettingsResult}
    (phase : c.phase = .unlocking r) :
    Kept codec { h with
      world := ({ h.world with holder := none } : SettingsWorld).goTo i c (.returned r) } := by
  obtain ⟨mine, -⟩ := k.mine found (by rw [phase]; rfl) (by rw [phase]; rfl)
  have later : Later c (.returned r) := by
    refine ⟨rfl, rfl, fun map saved => ?_⟩
    rw [phase, saved_unlocking]
    exact saved
  refine k.inside found rfl rfl rfl rfl (alone_of_holder mine) (fun j => .inr) (.inl rfl)
    (Nat.le_refl _) (fun _ _ => .inr rfl) k.stored k.order k.once ?_ nofun
  exact ((k.knows i c found).goTo later).frame rfl id rfl (List.suffix_refl _) (Nat.le_refl _)
    fun _ _ _ _ => rfl

/-- A step of a call keeps what holds of the settings. -/
theorem Kept.moves (correct : codec.Correct) (k : h.Kept codec)
    (found : h.world.calls[i]? = some c) {event : Option SettingsEvent} {w' : SettingsWorld}
    (moves : h.world.Moves codec i c event w') :
    Kept codec { h.observe i c event with world := w' } := by
  have knows := k.knows i c found
  cases moves with
  | waits phase =>
      have early : c.phase.early = true := by rw [phase]; rfl
      exact k.outside found ⟨rfl, rfl, rfl, rfl, rfl, rfl, fun _ _ => rfl⟩ rfl (fun _ _ => nofun)
        ⟨fun _ => knows.early early, fun _ => knows.unread (.inl early), knows.loaded,
          fun _ _ => nofun, fun _ => nofun⟩ nofun
  | refused early => exact k.goTo found h.world.counters ⟨rfl, rfl, fun _ => nofun⟩ nofun
  | locks phase free => exact k.locks found phase free
  | missing phase nothing =>
      have opened : Function.update h.opened i h.completed i = h.completed := Function.update_self ..
      refine k.loads found (by rw [phase]; rfl) (Function.update h.opened i h.completed)
        (fun j other => Function.update_of_ne other ..) ?_ (fun lock => ⟨?_, opened⟩) ?_
      · simp only [opened, List.suffix_refl]
      · have fits := (k.turn found (by rw [phase]; rfl) lock).2
        rw [phase] at fits
        exact fits
      · rw [opened, ← k.stored, SettingsWorld.stored, nothing]
  | opens phase inode named => exact k.opens found phase named
  | reads handle got phase n => exact k.reads found phase n
  | loads handle got phase whole =>
      obtain ⟨older, -, rfl, opens⟩ := knows.reading handle got phase
      refine k.loads found (by rw [phase]; rfl) h.opened (fun _ _ => rfl) older (fun lock => ?_) ?_
      · have fits := (k.turn found (by rw [phase]; rfl) lock).2
        rw [phase] at fits
        exact fits
      · rw [List.take_of_length_le whole, opens]
  | seals map phase nonce blob nonceLen sealed_ =>
      obtain ⟨mine, fits⟩ := k.mine found (by rw [phase]; rfl) (by rw [phase]; rfl)
      rw [phase] at fits
      exact k.goTo found h.world.counters ⟨rfl, rfl, fun _ => nofun⟩ fun _ => .inr ⟨mine, fits.1,
        fits.2, SettingsCodec.decrypt_encrypt correct nonceLen sealed_, trivial, fun _ _ _ => nofun⟩
  | goesOn map blob stage stage' phase onwards still =>
      obtain ⟨mine, fits⟩ := k.mine found (by rw [phase]; rfl) (by rw [phase]; rfl)
      rw [phase] at fits
      obtain ⟨turn, edits, opens, stageFits, -⟩ := fits
      exact k.goTo found h.world.counters ⟨rfl, rfl, fun _ => nofun⟩ fun _ => .inr ⟨mine, turn,
        edits, opens, onwards stageFits, fun tmp handle rest now => absurd now (still tmp handle rest)⟩
  | creates map blob phase tmp counters fresh => exact k.creates found phase tmp counters fresh
  | puts map blob tmp handle rest phase n => exact k.puts found phase n
  | replaces map blob tmp phase fs renamed => exact k.replaces found phase renamed
  | cleans map blob stage phase tmp counters =>
      obtain ⟨mine, -⟩ := k.mine found (by rw [phase]; rfl) (by rw [phase]; rfl)
      exact k.goTo found counters ⟨rfl, rfl, fun _ => nofun⟩ fun _ => .inr ⟨mine, trivial⟩
  | removes tmp phase => exact k.removes found phase
  | fails e busy => exact k.finish found busy _ fun _ => nofun
  | synced map phase =>
      refine k.finish found (by rw [phase]; rfl) _ ?_
      rw [phase]
      exact fun _ => id
  | unlocks r phase => exact k.unlocks found phase

theorem killed_cases (process : Nat) (d : SettingsCall) :
    d.killed process = d ∧ (d.phase.busy = true → d.process ≠ process) ∨
      d.killed process = { d with phase := .died } := by
  unfold SettingsCall.killed
  split
  · split
    · rename_i r phase
      refine .inl ⟨by rw [← phase], fun busy => ?_⟩
      rw [phase] at busy
      cases busy
    · exact .inr rfl
  · rename_i other
    exact .inl ⟨rfl, fun _ => other⟩

/-- A process dies, and its threads with it. -/
theorem Kept.crash (k : h.Kept codec) (process : Nat) :
    Kept codec { h with world := h.world.crash process } := by
  have back : ∀ (j : Nat) (d : SettingsCall), (h.world.crash process).calls[j]? = some d →
      ∃ d₀, h.world.calls[j]? = some d₀ ∧ (d = d₀ ∧ (d.phase.busy = true → d.process ≠ process) ∨
        d = { d₀ with phase := .died }) := by
    intro j d found
    obtain ⟨d₀, old, rfl⟩ := Option.map_eq_some_iff.mp ((List.getElem?_map ..).symm.trans found)
    refine ⟨d₀, old, ?_⟩
    obtain ⟨same, lives⟩ | died := killed_cases process d₀
    · exact .inl ⟨same, same.symm ▸ lives⟩
    · exact .inr died
  refine ⟨k.stored, k.order, k.once, fun j member => ?_, fun j task done => ?_,
    fun j d found => ?_, fun j d found busy => ?_⟩
  · show j < (h.world.calls.map _).length
    rw [List.length_map]
    exact k.known j member
  · obtain ⟨d, found, rfl⟩ := k.tasks j task done
    refine ⟨d.killed process, (List.getElem?_map ..).trans (by rw [found]; rfl), ?_⟩
    unfold SettingsCall.killed
    split <;> rfl
  · obtain ⟨d₀, old, ⟨rfl, -⟩ | rfl⟩ := back j d found
    · exact (k.knows j d old).frame rfl id rfl (List.suffix_refl _) (Nat.le_refl _)
        fun _ _ _ _ => rfl
    · have later : Later d₀ .died := ⟨rfl, rfl, fun _ => nofun⟩
      exact ((k.knows j d₀ old).goTo later).frame rfl id rfl (List.suffix_refl _) (Nat.le_refl _)
        fun _ _ _ _ => rfl
  · obtain ⟨d₀, old, ⟨rfl, lives⟩ | rfl⟩ := back j d found
    · obtain free | ⟨mine, fits⟩ := k.works j d old busy
      · exact .inl free
      · refine .inr ⟨?_, ?_⟩
        · show h.world.holder.filter _ = some j
          rw [mine, Option.filter_some, old]
          exact if_pos (decide_eq_true (lives busy))
        · refine fits_frame fits rfl rfl rfl rfl rfl fun inode _ unread => ?_
          intro j' d' handle got found' now
          obtain ⟨d₀, old', ⟨rfl, -⟩ | rfl⟩ := back j' d' found'
          · exact unread j' d' handle got old' now
          · cases now
    · cases busy

/-- A program begins, and does nothing yet. -/
theorem Kept.start (k : h.Kept codec) (process : Nat) (task : SettingsTask) :
    Kept codec { h with
      world := { h.world with calls := h.world.calls ++ [.begin process task] } } := by
  have back : ∀ (j : Nat) (d : SettingsCall),
      (h.world.calls ++ [.begin process task])[j]? = some d →
        h.world.calls[j]? = some d ∨ j = h.world.calls.length ∧ d = .begin process task :=
    fun j d => Slots.getElem?_concat_cases
  have begins : (SettingsCall.begin process task).phase = .locking ∨
      task.takesLock = false ∧ (SettingsCall.begin process task).phase = .opening := by
    cases lock : task.takesLock with
    | false => exact .inr ⟨rfl, by rw [SettingsCall.begin, lock]; rfl⟩
    | true => exact .inl (by rw [SettingsCall.begin, lock]; rfl)
  refine ⟨k.stored, k.order, k.once, fun j member => ?_, fun j task' done => ?_,
    fun j d found => ?_, fun j d found busy => ?_⟩
  · show j < (h.world.calls ++ _).length
    rw [List.length_append]
    exact Nat.lt_add_right _ (k.known j member)
  · obtain ⟨d, found, rfl⟩ := k.tasks j task' done
    exact ⟨d, (List.getElem?_append_left (List.getElem?_eq_some_iff.mp found).1).trans found, rfl⟩
  · obtain old | ⟨rfl, rfl⟩ := back j d found
    · exact (k.knows j d old).frame rfl id rfl (List.suffix_refl _) (Nat.le_refl _)
        fun _ _ _ _ => rfl
    · refine ⟨fun _ member => Nat.lt_irrefl _ (k.known _ member), fun _ => rfl, fun _ => nofun,
        fun handle got now => ?_, fun map saved => ?_⟩
      · obtain phase | ⟨-, phase⟩ := begins
        · cases phase.symm.trans now
        · cases phase.symm.trans now
      · obtain phase | ⟨-, phase⟩ := begins
        · rw [phase] at saved
          cases saved
        · rw [phase] at saved
          cases saved
  · obtain old | ⟨rfl, rfl⟩ := back j d found
    · obtain free | ⟨mine, fits⟩ := k.works j d old busy
      · exact .inl free
      · refine .inr ⟨mine, fits_frame fits rfl rfl rfl rfl rfl fun inode _ unread => ?_⟩
        intro j' d' handle got found' now
        obtain old' | ⟨rfl, rfl⟩ := back j' d' found'
        · exact unread j' d' handle got old' now
        · obtain phase | ⟨-, phase⟩ := begins
          · cases phase.symm.trans now
          · cases phase.symm.trans now
    · obtain phase | ⟨free, phase⟩ := begins
      · rw [phase] at busy
        cases busy
      · exact .inl ⟨free, by rw [phase]; rfl⟩

end

theorem Kept.step (correct : codec.Correct) (k : h.Kept codec) {l : SettingsLabel}
    {w' : SettingsWorld} (stepped : h.world.step codec l = some w') :
    Kept codec { h.noted l with world := w' } := by
  cases l with
  | start process task =>
      cases stepped
      exact k.start process task
  | act i a =>
      obtain ⟨c, found, proceeds⟩ := Option.bind_eq_some_iff.mp stepped
      rw [noted, found]
      exact k.moves correct found (SettingsWorld.proceed_cases proceeds)
  | crash process =>
      cases stepped
      exact k.crash process
  | counts process counter =>
      cases stepped
      exact ⟨k.stored, k.order, k.once, k.known, k.tasks,
        fun j d found => (k.knows j d found).frame rfl id rfl (List.suffix_refl _) (Nat.le_refl _)
          fun _ _ _ _ => rfl, k.works⟩

/-- In every run, with any number of processes and with any of them dying at any point, what is
stored is what the completed edits make of it in the order of the lock. -/
theorem settings_kept (correct : codec.Correct) (run : (machine codec).Reachable h) :
    h.SettingsHold codec := by
  have k : h.Kept codec := by
    refine run.invariant (I := fun h => h.Kept codec) ?_ ?_
    · rintro h ⟨calls, holder, initial, locked, completed⟩
      refine ⟨?_, ?_, ?_, ?_, ?_, ?_, ?_⟩
      · rw [completed, ← initial]
        rfl
      · rw [completed]
        exact List.nil_sublist _
      · rw [locked]
        exact List.nodup_nil
      · rw [locked]
        exact fun _ => nofun
      · rw [completed]
        exact fun _ _ => nofun
      · rw [calls]
        exact fun _ _ => nofun
      · rw [calls]
        exact fun _ _ => nofun
    · rintro h l h' k stepped
      obtain ⟨w', taken, rfl⟩ := Option.map_eq_some_iff.mp stepped
      exact k.step correct taken
  exact k.hold

/-! ## A run -/

/-- The maps of the run below, as JSON. -/
def sampleTexts : List (List (String × String) × String) :=
  [([("fps", "20")], "\x7b\"fps\":\"20\"\x7d"),
    ([("fps", "20"), ("token", "t")], "\x7b\"fps\":\"20\",\"token\":\"t\"\x7d")]

def sampleCodec : SettingsCodec where
  crypto := IdentityWorld.sampleSeedCrypto
  toVec map := (sampleTexts.find? (·.1 = map.toList)).map fun entry => utf8 entry.2
  fromSlice text := (sampleTexts.find? (utf8 ·.2 = text)).map fun entry => .ofList entry.1
  subkey := List.replicate 32 7

theorem sampleCodec_reads : ∀ entry ∈ sampleTexts,
    (sampleCodec.fromSlice (utf8 entry.2)).map (·.toList) = some entry.1 := by
  decide

theorem sampleCodec_correct : sampleCodec.Correct where
  crypto := IdentityWorld.sampleSeedCrypto_correct
  json := by
    intro map text written
    obtain ⟨entry, found, rfl⟩ := Option.map_eq_some_iff.mp written
    have same : entry.1 = map.toList := by simpa using List.find?_some found
    obtain ⟨map', read, entries⟩ :=
      Option.map_eq_some_iff.mp (sampleCodec_reads entry (List.mem_of_find?_eq_some found))
    rw [read, Std.ExtTreeMap.toList_inj.mp (entries.trans same)]

/-- No file, and nobody who works. -/
def noSettings : SettingsHistory where
  world := {
    fs := { names := fun _ => none, data := fun _ => [], next := 0, used := fun _ _ => nofun }
    holder := none
    counters := fun _ => 0
    calls := [] }
  initial := .ok ∅
  locked := []
  completed := []
  opened _ := []

/-- A call loads the settings in some steps, and saves. -/
def saves (reads : List SettingsAct) : List SettingsAct :=
  reads ++ [.random (List.replicate 24 5), .go, .go, .partly 9, .partly 999, .go, .go, .go, .go]

/-- A command waits for a command that dies when it has replaced the file, and a host starts in
between. -/
def handsOver : List SettingsLabel :=
  [.start 1 (.command "set" ["fps", "20"]), .start 2 (.refreshToken "t"), .act 1 .go] ++
    (saves [.go, .go, .go]).map (.act 0) ++
    [.start 3 .start, .act 2 .go, .act 2 (.partly 8), .crash 1] ++
    (saves [.go, .go, .partly 30, .partly 999, .go]).map (.act 1) ++
    [.act 1 .go, .act 1 .go, .act 2 (.partly 999), .act 2 .go]

set_option maxRecDepth 8000 in
theorem settings_kept_handover : ∃ h, (machine sampleCodec).Reachable h ∧
    h.completed.map (·.1) = [1, 0] ∧
    (h.world.stored sampleCodec).toOption.map (·.toList) = some [("fps", "20"), ("token", "t")] ∧
    h.SettingsHold sampleCodec := by
  obtain ⟨h, run, completed, stored⟩ := Machine.exists_reachableBy (machine sampleCodec)
    Machine.Always (s := noSettings) ⟨rfl, rfl, rfl, rfl, rfl⟩ handsOver
    (fun h => h.completed.map (·.1) = [1, 0] ∧ (h.world.stored sampleCodec).toOption.map
      (·.toList) = some [("fps", "20"), ("token", "t")]) (by decide)
  exact ⟨h, run, completed, stored, settings_kept sampleCodec_correct run⟩

end SettingsHistory
end ReachMyDevice
