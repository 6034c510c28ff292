import ReachMyDevice.SignalingPair

/-!
# Connections that have failed

A connection that reports `Failed` or `Closed` is of no use any more, so a new
one has to be asked for.
-/
namespace ReachMyDevice
open Machines Driver

variable {J : Type}

def ConnectionState.over : ConnectionState → Bool
  | .failed | .closed => true
  | .new | .connecting | .connected | .disconnected => false

/-- The connection reports that it is over. -/
def DriverLabel.fails : DriverLabel J → Bool
  | .event (.connectionStateChange s) => s.over
  | _ => false

namespace Driver

theorem applySignal_rebuild (rtc : Rtc J) {d : Driver J} (msg : SignalMsg J) (outcome : SetRemote)
    (wanted : d.rebuild = true) : (applySignal rtc d msg outcome).1.rebuild = true := by
  cases msg with
  | offer json =>
      simp only [applySignal]
      split
      · rfl
      · cases outcome with
        | rejected => exact wanted
        | unanswered => exact wanted
        | applied refusedAt => cases refusedAt <;> exact wanted
  | answer json =>
      simp only [applySignal]
      split
      · rfl
      · cases outcome <;> exact wanted
  | candidate line =>
      simp only [applySignal]
      split <;> exact wanted

theorem drainCommand_rebuild (rtc : Rtc J) {d : Driver J} (cmd : DriverCmd J) (outcome : SetRemote)
    (wanted : d.rebuild = true) : (drainCommand rtc d cmd outcome).1.rebuild = true := by
  cases cmd with
  | signal msg => exact applySignal_rebuild rtc msg outcome wanted
  | iceRestart =>
      simp only [drainCommand]
      split
      · rfl
      · exact wanted
  | video frame => exact wanted
  | data bytes => exact wanted
  | shutdown => exact wanted

theorem drainEvent_rebuild {d : Driver J} (e : PcEvent) (wanted : d.rebuild = true) :
    (drainEvent d e).1.rebuild = true := by
  cases e with
  | connectionStateChange s =>
      cases s with
      | new | connecting => exact wanted
      | connected =>
          simp only [drainEvent]
          split <;> exact wanted
      | disconnected | failed | closed =>
          simp only [drainEvent]
          split
          · rfl
          · exact wanted
  | iceCandidate c => cases c <;> exact wanted
  | dataChannelOpen id => exact wanted
  | other => exact wanted

/-- A wish for a new connection stands until there is one. -/
theorem step_rebuild {rtc : Rtc J} {d d' : Driver J} {l : DriverLabel J} {out : List (DriverOut J)}
    (h : step rtc d l = some (d', out)) (wanted : d.rebuild = true) :
    d'.rebuild = true ∨ d'.pc.id ≠ d.pc.id := by
  cases turn_of_step h with
  | command cmd outcome _ same =>
      have kept := drainCommand_rebuild rtc cmd outcome wanted
      rw [same] at kept
      exact .inl kept
  | event e _ same =>
      have kept := drainEvent_rebuild e wanted
      rw [same] at kept
      exact .inl kept
  | renews gathered outcome _ _ same =>
      cases gathered with
      | none =>
          cases same
          exact .inl wanted
      | some lines =>
          have new := (rebuilt_renewed rtc d lines outcome).id
          rw [same] at new
          refine .inr fun unchanged => ?_
          have := unchanged.symm.trans new
          omega
  | stays | established | read | commandsDone | readsDone | fault => exact .inl wanted

/-- A failure asks for a new connection only if the old one was connected. -/
theorem fails_rebuild {rtc : Rtc J} {d d' : Driver J} {l : DriverLabel J} {out : List (DriverOut J)}
    (h : step rtc d l = some (d', out)) (fails : l.fails = true) :
    d'.pc.id = d.pc.id ∧ (d'.rebuild = true ↔ d.connected = true ∨ d.rebuild = true) := by
  cases turn_of_step h with
  | event e _ same =>
      cases e with
      | connectionStateChange s =>
          cases s with
          | failed | closed =>
              cases connected : d.connected with
              | true =>
                  simp only [drainEvent, connected, if_true] at same
                  cases same
                  exact ⟨rfl, by simp⟩
              | false =>
                  simp only [drainEvent, connected, Bool.false_eq_true, if_false] at same
                  cases same
                  exact ⟨rfl, by simp⟩
          | new | connecting | connected | disconnected => cases fails
      | _ => cases fails
  | _ => cases fails

end Driver

/-- A driver, and whether its current connection has reported that it is over. -/
structure Watched (J : Type) where
  driver : Driver J
  failed : Bool

/-- What is known of a connection after a step; a new one has reported nothing. -/
def failedAfter (failed : Bool) (d d' : Driver J) (l : DriverLabel J) : Bool :=
  decide (d'.pc.id = d.pc.id) && (failed || l.fails)

namespace Watched

def start (rtc : Rtc J) (isHost : Bool) (gathered : List String) : Watched J where
  driver := (Driver.first rtc isHost gathered).1
  failed := false

def step (rtc : Rtc J) (s : Watched J) (l : DriverLabel J) : Option (Watched J) :=
  (s.driver.step rtc l).map fun r =>
    { driver := r.1, failed := failedAfter s.failed s.driver r.1 l }

def machine (rtc : Rtc J) (isHost : Bool) : Machine (Watched J) (DriverLabel J) where
  init s := ∃ gathered, s = start rtc isHost gathered
  step := step rtc

/-- A connection that is over is about to be replaced. -/
def Alive (s : Watched J) : Prop := s.failed = true → s.driver.rebuild = true

/-- A connection fails only after it was connected, or when it is to be replaced anyway. -/
def FailsConnected (s : Watched J) (l : DriverLabel J) : Prop :=
  l.fails = true → s.driver.connected = true ∨ s.driver.rebuild = true

theorem Alive.step_iff {rtc : Rtc J} {s s' : Watched J} {l : DriverLabel J} (alive : Alive s)
    (taken : Watched.step rtc s l = some s') : Alive s' ↔ FailsConnected s l := by
  obtain ⟨⟨d', out⟩, driven, rfl⟩ := Option.map_eq_some_iff.mp taken
  cases fails : l.fails with
  | true =>
      obtain ⟨id, wants⟩ := fails_rebuild driven fails
      simp [Alive, FailsConnected, failedAfter, fails, id, wants]
  | false =>
      refine iff_of_true ?_ (by simp [FailsConnected, fails])
      intro failed
      simp only [failedAfter, fails, Bool.or_false, Bool.and_eq_true, decide_eq_true_eq] at failed
      exact (step_rebuild driven (alive failed.2)).resolve_right fun new => new failed.1

theorem alive_of_run {rtc : Rtc J} {isHost : Bool} {s : Watched J}
    (run : (machine rtc isHost).ReachableBy FailsConnected s) : Alive s := by
  apply run.invariant
  · rintro s ⟨gathered, rfl⟩ failed
    cases failed
  · intro s l s' alive met taken
    exact (alive.step_iff taken).mpr met

theorem Alive.not_failed {s : Watched J} (alive : Alive s) (still : s.driver.rebuild = false) :
    s.failed = false := by
  apply Bool.eq_false_iff.mpr
  intro failed
  have wanted := alive failed
  rw [still] at wanted
  cases wanted

/-- In the runs in which connections fail only after they were connected every failed one is
about to be replaced, so no quiescent pair is left with it; and the first failure before is
never followed up. -/
theorem failed_wants_rebuild {rtc : Rtc J} {isHost : Bool} {s : Watched J}
    (run : (machine rtc isHost).ReachableBy FailsConnected s) :
    Alive s ∧ (∀ l s', Watched.step rtc s l = some s' → (Alive s' ↔ FailsConnected s l)) ∧
      ∀ p : SignalingPair J, p.Quiescent → p.host.driver = s.driver ∨ p.viewer.driver = s.driver →
        s.failed = false := by
  have alive := alive_of_run run
  refine ⟨alive, fun l s' taken => alive.step_iff taken, fun p quiet member => ?_⟩
  rcases member with host | viewer
  · exact alive.not_failed (host ▸ quiet.hostRebuild)
  · exact alive.not_failed (viewer ▸ quiet.viewerRebuild)

instance (s : Watched J) : Decidable (Alive s) :=
  inferInstanceAs (Decidable (s.failed = true → s.driver.rebuild = true))

instance (s : Watched J) (l : DriverLabel J) : Decidable (FailsConnected s l) :=
  inferInstanceAs (Decidable (l.fails = true → s.driver.connected = true ∨ s.driver.rebuild = true))

/-- A connection is up and fails, and is about to be replaced. -/
theorem failed_wants_rebuild_up : ∃ s : Watched (List Nat),
    s.failed = true ∧ s.driver.rebuild = true ∧ Alive s := by
  obtain ⟨s, run, failed, wanted⟩ := Machine.exists_reachableBy (machine SignalingPair.pairRtc true)
    FailsConnected ⟨[], rfl⟩
    [.command (.signal (.answer [0])) (.applied none), .commandsDone, .established,
      .event (.connectionStateChange .connected), .event (.connectionStateChange .failed)]
    (fun s => s.failed = true ∧ s.driver.rebuild = true) (by decide)
  exact ⟨s, failed, wanted, (failed_wants_rebuild run).1⟩

end Watched

/-- A host and a viewer, each with what is known of its connection. -/
structure WatchedPair (J : Type) where
  pair : SignalingPair J
  hostFailed : Bool
  viewerFailed : Bool

namespace WatchedPair

def host (s : WatchedPair J) : Watched J := ⟨s.pair.host.driver, s.hostFailed⟩
def viewer (s : WatchedPair J) : Watched J := ⟨s.pair.viewer.driver, s.viewerFailed⟩

def observe (s : WatchedPair J) (p : SignalingPair J) : PairLabel J → WatchedPair J
  | .host l =>
    { s with pair := p, hostFailed := failedAfter s.hostFailed s.pair.host.driver p.host.driver l }
  | .viewer l =>
    { s with
      pair := p, viewerFailed := failedAfter s.viewerFailed s.pair.viewer.driver p.viewer.driver l }
  | _ => { s with pair := p }

def step [DecidableEq J] (rtc : Rtc J) (s : WatchedPair J) (l : PairLabel J) :
    Option (WatchedPair J) :=
  (s.pair.step rtc l).map fun p => s.observe p l

def machine [DecidableEq J] (rtc : Rtc J) : Machine (WatchedPair J) (PairLabel J) where
  init s := ∃ hostGathered viewerGathered, s = ⟨.start rtc hostGathered viewerGathered, false, false⟩
  step := step rtc

def FailsConnected (s : WatchedPair J) : PairLabel J → Prop
  | .host l => s.host.FailsConnected l
  | .viewer l => s.viewer.FailsConnected l
  | _ => True

/-- What a step of the pair does to its two drivers. -/
theorem step_drivers [DecidableEq J] {rtc : Rtc J} {s : WatchedPair J} {p : SignalingPair J}
    {l : PairLabel J} (h : s.pair.step rtc l = some p) :
    (∃ dl, l = .host dl ∧ Watched.step rtc s.host dl = some (s.observe p l).host ∧
        (s.observe p l).viewer = s.viewer) ∨
      (∃ dl, l = .viewer dl ∧ Watched.step rtc s.viewer dl = some (s.observe p l).viewer ∧
        (s.observe p l).host = s.host) ∨
      (s.observe p l).host = s.host ∧ (s.observe p l).viewer = s.viewer := by
  cases l with
  | host dl =>
      obtain ⟨⟨k, out⟩, advanced, rfl⟩ := Option.map_eq_some_iff.mp h
      have step := (Link.advance_cases advanced).step
      refine .inl ⟨dl, rfl, ?_, rfl⟩
      simp only [Watched.step, WatchedPair.host, step, Option.map_some]
      rfl
  | viewer dl =>
      obtain ⟨⟨k, out⟩, advanced, rfl⟩ := Option.map_eq_some_iff.mp h
      have step := (Link.advance_cases advanced).step
      refine .inr (.inl ⟨dl, rfl, ?_, rfl⟩)
      simp only [Watched.step, WatchedPair.viewer, step, Option.map_some]
      rfl
  | hostCommand cmd | viewerCommand cmd =>
      obtain ⟨-, same⟩ := Option.ite_none_right_eq_some.mp h
      cases same
      exact .inr (.inr ⟨rfl, rfl⟩)
  | hostSends | viewerSends | toViewer | toHost =>
      simp only [SignalingPair.step] at h
      split at h
      · cases h
      · cases h
        exact .inr (.inr ⟨rfl, rfl⟩)
  | replay =>
      obtain ⟨json, -, rfl⟩ := Option.map_eq_some_iff.mp h
      exact .inr (.inr ⟨rfl, rfl⟩)

/-- A run of the pair is a run of each of its drivers. -/
theorem runs [DecidableEq J] {rtc : Rtc J} {s : WatchedPair J}
    (run : (machine rtc).ReachableBy FailsConnected s) :
    (Watched.machine rtc true).ReachableBy Watched.FailsConnected s.host ∧
      (Watched.machine rtc false).ReachableBy Watched.FailsConnected s.viewer := by
  apply run.invariant
  · rintro s ⟨hostGathered, viewerGathered, rfl⟩
    exact ⟨.start ⟨hostGathered, rfl⟩, .start ⟨viewerGathered, rfl⟩⟩
  · rintro s l s' ⟨host, viewer⟩ met taken
    obtain ⟨p, stepped, rfl⟩ := Option.map_eq_some_iff.mp taken
    rcases step_drivers stepped with ⟨dl, rfl, moved, same⟩ | ⟨dl, rfl, moved, same⟩ | ⟨sameHost, sameViewer⟩
    · exact ⟨.next host met moved, same ▸ viewer⟩
    · exact ⟨same ▸ host, .next viewer met moved⟩
    · exact ⟨sameHost ▸ host, sameViewer ▸ viewer⟩

/-- The library does what is assumed of it. -/
def Library (rtc : Rtc J) (s : WatchedPair J) : PairLabel J → Prop
  | .host l => libAllows rtc s.pair.host.driver l
  | .viewer l => libAllows rtc s.pair.viewer.driver l
  | _ => True

instance (rtc : Rtc J) (s : WatchedPair J) (l : PairLabel J) : Decidable (Library rtc s l) :=
  match l with
  | .host l => inferInstanceAs (Decidable (libAllows rtc s.pair.host.driver l))
  | .viewer l => inferInstanceAs (Decidable (libAllows rtc s.pair.viewer.driver l))
  | .hostCommand _ | .viewerCommand _ | .hostSends | .viewerSends | .toViewer | .toHost
  | .replay => .isTrue trivial

/-- The offer is answered, and both connections fail before they were ever connected. -/
def failingRun : List (PairLabel (List Nat)) :=
  [.hostSends, .toViewer, .viewer (.command (.signal (.offer [0])) (.applied none)), .viewerSends,
    .toHost, .host (.command (.signal (.answer [0, 0])) (.applied none)), .host .commandsDone,
    .host (.event (.connectionStateChange .failed)), .host (.eventsDone none .rejected),
    .viewer .commandsDone, .viewer (.event (.connectionStateChange .failed)),
    .viewer (.eventsDone none .rejected)]

/-- The pair is left dead: nothing is in flight, and nobody asks for a new connection. -/
theorem both_fail_for_good : ∃ s : WatchedPair (List Nat),
    (machine SignalingPair.pairRtc).ReachableBy (Library SignalingPair.pairRtc) s ∧
      s.pair.Quiescent ∧ s.pair.host.driver.phase = .reads ∧ s.pair.viewer.driver.phase = .reads ∧
      ¬ s.host.Alive ∧ ¬ s.viewer.Alive :=
  Machine.exists_reachableBy (machine SignalingPair.pairRtc) _ ⟨[], [], rfl⟩ failingRun _
    (by decide)

end WatchedPair
end ReachMyDevice
