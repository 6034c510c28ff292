import ReachMyDevice.Lib.Machine
import ReachMyDevice.Lib.Histories
import ReachMyDevice.DriverStep

/-!
# The connection events of a driver

The host resets its per-viewer state on `Disconnected` only, so each `Connected`
has to be closed before the next one.
-/
namespace ReachMyDevice
open Machines Alternation Driver

variable {J : Type}

/-- Whether an event opens or closes a connection. -/
def TransportEvent.lifecycle : TransportEvent J → Option Bool
  | .connected => some true
  | .disconnected => some false
  | _ => none

theorem TransportEvent.lifecycle_plain {ev : TransportEvent J} (plain : ev.plain = true) :
    ev.lifecycle = none := by
  cases ev with
  | connected => cases plain
  | disconnected => cases plain
  | _ => rfl

theorem lifecycle_plain {evs : List (TransportEvent J)} (silent : ∀ ev ∈ evs, ev.plain = true) :
    evs.filterMap TransportEvent.lifecycle = [] :=
  List.filterMap_eq_nil_iff.mpr fun ev member => TransportEvent.lifecycle_plain (silent ev member)

/-- A driver with all the events it has emitted. -/
structure EventStream (J : Type) where
  driver : Driver J
  emitted : List (TransportEvent J)
  deriving DecidableEq, Repr

namespace EventStream

def lifecycle (s : EventStream J) : List Bool := s.emitted.filterMap TransportEvent.lifecycle

def start (rtc : Rtc J) (isHost : Bool) (gathered : List String) : EventStream J where
  driver := (Driver.first rtc isHost gathered).1
  emitted := emissions (Driver.first rtc isHost gathered).2

def step (rtc : Rtc J) (s : EventStream J) (l : DriverLabel J) : Option (EventStream J) :=
  (s.driver.step rtc l).map fun r => { driver := r.1, emitted := s.emitted ++ emissions r.2 }

def machine (rtc : Rtc J) (isHost : Bool) : Machine (EventStream J) (DriverLabel J) where
  init s := ∃ gathered, s = start rtc isHost gathered
  step := step rtc

/-- No connection is replaced while the `Connected` it emitted is still open. -/
def ClosedBeforeRebuild (s : EventStream J) : DriverLabel J → Prop
  | .eventsDone _ _ => ¬ (s.driver.rebuild = true ∧ s.driver.connected = true)
  | _ => True

structure Balanced (s : EventStream J) : Prop where
  alternates : Alternates s.lifecycle
  isOpen : s.driver.connected = true ↔ ¬ Even s.lifecycle.length

theorem start_balanced (rtc : Rtc J) (isHost : Bool) (gathered : List String) :
    Balanced (start rtc isHost gathered) := by
  obtain ⟨plain, closed⟩ := first_closed rtc isHost gathered
  have silent : (start rtc isHost gathered).lifecycle = [] := lifecycle_plain plain
  refine ⟨silent ▸ alternates_nil, ?_⟩
  have closed' : (start rtc isHost gathered).driver.connected = false := closed
  simp [silent, closed']

/-- Nothing is told and the flag stays. -/
theorem Balanced.silent {s : EventStream J} (h : Balanced s) {d' : Driver J}
    {evs : List (TransportEvent J)} (silent : evs.filterMap TransportEvent.lifecycle = [])
    (same : d'.connected = s.driver.connected) : Balanced ⟨d', s.emitted ++ evs⟩ := by
  have unchanged : lifecycle ⟨d', s.emitted ++ evs⟩ = s.lifecycle := by
    simp only [lifecycle, List.filterMap_append, silent, List.append_nil]
  exact ⟨unchanged ▸ h.alternates, by rw [unchanged, same]; exact h.isOpen⟩

theorem Balanced.opens {s : EventStream J} (h : Balanced s) (before : s.driver.connected = false) :
    Balanced ⟨{ s.driver with connected := true }, s.emitted ++ [.connected]⟩ := by
  have even : Even s.lifecycle.length := by
    have := mt h.isOpen.mpr
    simpa [before] using this
  have grown : lifecycle ⟨{ s.driver with connected := true }, s.emitted ++ [.connected]⟩ =
      s.lifecycle ++ [true] := List.filterMap_append ..
  refine ⟨?_, ?_⟩
  · rw [grown]
    exact alternates_concat.mpr ⟨h.alternates, by simp [even]⟩
  · rw [grown, List.length_append, List.length_singleton, Nat.even_add_one]
    simp [even]

theorem Balanced.closes {s : EventStream J} (h : Balanced s) (before : s.driver.connected = true) :
    Balanced ⟨{ s.driver with connected := false, rebuild := true },
      s.emitted ++ [.disconnected]⟩ := by
  have odd : ¬ Even s.lifecycle.length := h.isOpen.mp before
  have grown : lifecycle ⟨{ s.driver with connected := false, rebuild := true },
      s.emitted ++ [.disconnected]⟩ = s.lifecycle ++ [false] := List.filterMap_append ..
  refine ⟨?_, ?_⟩
  · rw [grown]
    exact alternates_concat.mpr ⟨h.alternates, by simp [odd]⟩
  · rw [grown, List.length_append, List.length_singleton, Nat.even_add_one]
    simp [odd]

theorem Balanced.step {rtc : Rtc J} {s s' : EventStream J} {l : DriverLabel J} (h : Balanced s)
    (met : ClosedBeforeRebuild s l) (taken : EventStream.step rtc s l = some s') : Balanced s' := by
  simp only [EventStream.step, Option.map_eq_some_iff] at taken
  obtain ⟨⟨d', out⟩, taken, rfl⟩ := taken
  have told := step_emission taken
  generalize emissions out = evs at told ⊢
  cases told with
  | plain silent _ _ same => exact h.silent (lifecycle_plain silent) same
  | opens before => exact h.opens before
  | closes before => exact h.closes before
  | reads bytes => exact h.silent rfl rfl
  | renewed wanted silent new =>
      have closed : s.driver.connected = false :=
        Bool.eq_false_iff.mpr fun isOpen => met ⟨wanted, isOpen⟩
      exact h.silent (lifecycle_plain silent) (new.connected.trans closed.symm)

/-- Every `Connected` is closed by exactly one `Disconnected` before the next one, in every
run that tears down no connection whose `Connected` is open. -/
theorem connected_alternates {rtc : Rtc J} {isHost : Bool} {s : EventStream J}
    (run : (machine rtc isHost).ReachableBy ClosedBeforeRebuild s) : Alternates s.lifecycle := by
  have balanced : Balanced s := by
    refine run.invariant ?_ ?_
    · rintro s ⟨gathered, rfl⟩
      exact start_balanced rtc isHost gathered
    · intro s l s' h met taken
      exact h.step met taken
  exact balanced.alternates

instance (s : EventStream J) (l : DriverLabel J) : Decidable (ClosedBeforeRebuild s l) :=
  match l with
  | .eventsDone _ _ => inferInstanceAs (Decidable (¬(_ ∧ _)))
  | .command _ _ | .commandsDone | .established | .event _ | .read _ | .readsDone | .fault =>
    .isTrue trivial

def unitRtc : Rtc Unit where
  createOffer _ := ()
  createAnswer _ _ := ()
  sdp _ := none

/-- An answered connection comes up. -/
def comesUp : List (DriverLabel Unit) :=
  [.command (.signal (.answer ())) (.applied none), .commandsDone, .established,
   .event (.connectionStateChange .connected)]

/-- It is lost, and the one that replaces it comes up. -/
theorem connected_alternates_lost : ∃ s : EventStream Unit,
    s.lifecycle = [true, false, true] ∧ Alternates s.lifecycle := by
  obtain ⟨s, run, shape⟩ := Machine.exists_reachableBy (machine unitRtc true) ClosedBeforeRebuild
    ⟨[], rfl⟩
    (comesUp ++ [.event (.connectionStateChange .disconnected), .eventsDone (some []) .rejected] ++
      comesUp) (fun s => s.lifecycle = [true, false, true]) (by decide)
  exact ⟨s, shape, connected_alternates run⟩

/-- `IceRestart` replaces a live connection without a `Disconnected`. -/
theorem restart_connected_twice : ∃ s : EventStream Unit,
    (machine unitRtc true).Reachable s ∧ s.lifecycle = [true, true] ∧ ¬ Alternates s.lifecycle :=
  Machine.exists_reachableBy (machine unitRtc true) _ ⟨[], rfl⟩
    (comesUp ++ [.eventsDone none .rejected, .readsDone, .command .iceRestart .rejected,
      .commandsDone, .eventsDone (some []) .rejected] ++ comesUp) _ (by decide)

end EventStream
end ReachMyDevice
