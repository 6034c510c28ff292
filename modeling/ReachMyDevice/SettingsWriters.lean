import ReachMyDevice.IdentityLoad
import ReachMyDevice.Lib.FileSystem
import ReachMyDevice.SettingsFile

/-!
# Programs that open the settings side by side

Each takes the lock, loads, edits, saves and lets the lock go, with one step for
each call of the operating system. A process may die between any two steps. The
lock is that of Unix: elsewhere `lock` takes none.
-/
namespace ReachMyDevice
open Machines FileSystem

/-- The file, or a temporary one, named by its process and a counter. -/
inductive SettingsName
  | settings
  | temp (tmp : TempName)
  deriving DecidableEq

inductive SaveStage
  | createDir
  | createTemp
  | write (tmp : TempName) (handle : Handle) (rest : Bytes)
  | sync (tmp : TempName)
  | restrict (tmp : TempName)
  | rename (tmp : TempName)

/-- `some map` is what was saved. -/
abbrev SettingsResult := Except SettingsError (Option SettingsMap)

inductive SettingsPhase
  | locking
  | waiting
  | opening
  | reading (handle : Handle) (got : Bytes)
  | sealing (map : SettingsMap)
  | writing (map : SettingsMap) (blob : Bytes) (stage : SaveStage)
  | cleaning (tmp : TempName)
  | syncingDir (map : SettingsMap)
  | unlocking (result : SettingsResult)
  | returned (result : SettingsResult)
  | died

/-- A thread at its task, with the settings that it loaded. -/
structure SettingsCall where
  process : Nat
  task : SettingsTask
  loaded : Option (Except SettingsError SettingsMap)
  phase : SettingsPhase

/-- A process counts the temporary files it has named. -/
structure SettingsWorld where
  fs : Fs SettingsName UInt8
  holder : Option Nat
  counters : Nat → Nat
  calls : List SettingsCall

inductive SettingsAct
  | go
  | fails
  | partly (n : Nat)
  | random (nonce : Bytes)

inductive SettingsLabel
  | start (process : Nat) (task : SettingsTask)
  | act (i : Nat) (a : SettingsAct)
  | crash (process : Nat)
  /-- The process saves another file, or begins anew under the same number. -/
  | counts (process counter : Nat)

inductive SettingsEvent
  | locks
  | opens
  | replaces

/-- What the next step of a call does, when it succeeds. -/
def SettingsPhase.event : SettingsPhase → Option SettingsEvent
  | .waiting => some .locks
  | .opening => some .opens
  | .writing _ _ (.rename _) => some .replaces
  | _ => none

namespace SettingsTask
variable (task : SettingsTask)

/-- The lock is let go when its guard is dropped. -/
def finished (result : SettingsResult) : SettingsPhase :=
  if task.takesLock then .unlocking result else .returned result

/-- What is done with the settings that were loaded. -/
def loads (loaded : Except SettingsError SettingsMap) : SettingsPhase :=
  match loaded.bind fun map => task.edit map with
  | .error e => task.finished (.error e)
  | .ok none => task.finished (.ok none)
  | .ok (some map) => .sealing map

end SettingsTask

namespace SettingsCall

def begin (process : Nat) (task : SettingsTask) : SettingsCall where
  process
  task
  loaded := none
  phase := if task.takesLock then .locking else .opening

/-- What is recorded of a step of a call that succeeds. -/
def event (c : SettingsCall) : SettingsAct → Option SettingsEvent
  | .go => c.phase.event
  | _ => none

/-- A process that dies takes its threads with it. -/
def killed (process : Nat) (c : SettingsCall) : SettingsCall :=
  if c.process = process then
    { c with phase := match c.phase with
      | .returned r => .returned r
      | _ => .died }
  else c

end SettingsCall

namespace SettingsWorld
variable (codec : SettingsCodec) (w : SettingsWorld)

def goTo (i : Nat) (c : SettingsCall) (phase : SettingsPhase) : SettingsWorld :=
  { w with calls := w.calls.set i { c with phase } }

def finish (i : Nat) (c : SettingsCall) (result : SettingsResult) : SettingsWorld :=
  w.goTo i c (c.task.finished result)

def loads (i : Nat) (c : SettingsCall) (loaded : Except SettingsError SettingsMap) :
    SettingsWorld :=
  w.goTo i { c with loaded := some loaded } (c.task.loads loaded)

/-- `atomic_write_secret` -/
def write (i : Nat) (c : SettingsCall) (map : SettingsMap) (blob : Bytes) :
    SaveStage → SettingsAct → Option SettingsWorld
  | .createDir, .go => some (w.goTo i c (.writing map blob .createTemp))
  | .createDir, .fails => some (w.finish i c (.error .io))
  | .createTemp, .go =>
    let tmp := (c.process, w.counters c.process)
    let w' := { w with counters := Function.update w.counters c.process (tmp.2 + 1) }
    if (w.fs.names (.temp tmp)).isSome then some (w'.goTo i c (.cleaning tmp))
    else
      let (fs, handle) := w.fs.openWrite (.temp tmp)
      some (({ w' with fs } : SettingsWorld).goTo i c (.writing map blob (.write tmp handle blob)))
  | .createTemp, .fails =>
    let tmp := (c.process, w.counters c.process)
    some (({ w with counters := Function.update w.counters c.process (tmp.2 + 1) } :
      SettingsWorld).goTo i c (.cleaning tmp))
  | .write tmp handle rest, .partly n =>
    let chunk := rest.take n
    some (({ w with fs := w.fs.write 0 handle chunk } : SettingsWorld).goTo i c
      (.writing map blob (.write tmp { handle with cursor := handle.cursor + chunk.length }
        (rest.drop n))))
  | .write tmp _ [], .go => some (w.goTo i c (.writing map blob (.sync tmp)))
  | .sync tmp, .go => some (w.goTo i c (.writing map blob (.restrict tmp)))
  | .restrict tmp, .go => some (w.goTo i c (.writing map blob (.rename tmp)))
  | .restrict _, .fails => some (w.finish i c (.error .io))
  | .rename tmp, .go => (w.fs.rename (.temp tmp) .settings).map fun fs =>
    ({ w with fs } : SettingsWorld).goTo i c (.syncingDir map)
  | .write tmp _ _, .fails | .sync tmp, .fails | .rename tmp, .fails =>
    some (w.goTo i c (.cleaning tmp))
  | _, _ => none

def proceed (i : Nat) (c : SettingsCall) (a : SettingsAct) : Option SettingsWorld :=
  match c.phase, a with
  | .locking, .go => some (w.goTo i c .waiting)
  | .waiting, .go =>
    if w.holder = none then some (({ w with holder := some i } : SettingsWorld).goTo i c .opening)
    else none
  | .locking, .fails | .waiting, .fails => some (w.goTo i c (.returned (.error .io)))
  | .opening, .go =>
    match w.fs.openRead .settings with
    | none => some (w.loads i c (.ok ∅))
    | some handle => some (w.goTo i c (.reading handle []))
  | .reading handle got, .partly n =>
    let chunk := w.fs.readAt handle n
    if chunk = [] then none
    else some (w.goTo i c
      (.reading { handle with cursor := handle.cursor + chunk.length } (got ++ chunk)))
  | .reading handle got, .go =>
    if (w.fs.data handle.inode).length ≤ handle.cursor then some (w.loads i c (codec.decrypt got))
    else none
  | .opening, .fails | .reading _ _, .fails => some (w.finish i c (.error .io))
  | .sealing map, .random nonce =>
    if nonce.length = settingsNonceLen then
      match codec.encrypt map nonce with
      | .ok blob => some (w.goTo i c (.writing map blob .createDir))
      | .error e => some (w.finish i c (.error e))
    else none
  | .sealing _, .fails => some (w.finish i c (.error .random))
  | .writing map blob stage, a => w.write i c map blob stage a
  | .cleaning tmp, .go =>
    some (({ w with fs := w.fs.remove (.temp tmp) } : SettingsWorld).finish i c (.error .io))
  | .cleaning _, .fails => some (w.finish i c (.error .io))
  -- That the directory is not written to disk is no failure.
  | .syncingDir map, .go | .syncingDir map, .fails => some (w.finish i c (.ok (some map)))
  | .unlocking r, .go => some (({ w with holder := none } : SettingsWorld).goTo i c (.returned r))
  | _, _ => none

/-- The lock of a process that has died is free. -/
def crash (process : Nat) : SettingsWorld :=
  { w with
    calls := w.calls.map (·.killed process)
    holder := w.holder.filter fun i => w.calls[i]?.any (·.process ≠ process) }

def step : SettingsLabel → Option SettingsWorld
  | .start process task => some { w with calls := w.calls ++ [.begin process task] }
  | .act i a => w.calls[i]?.bind fun c => w.proceed codec i c a
  | .crash process => some (w.crash process)
  | .counts process counter =>
    some { w with counters := Function.update w.counters process counter }

end SettingsWorld
end ReachMyDevice
