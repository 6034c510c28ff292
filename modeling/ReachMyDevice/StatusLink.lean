import ReachMyDevice.EventStream
import ReachMyDevice.HostLink
import ReachMyDevice.StatusAgreement

/-!
# The reported status and the connection that is up

The host with its driver, and the last status that the session has reported.
-/
namespace ReachMyDevice
open Machines Feed

variable {J D H : Type}

/-! ## A queue that tells whether the connection is up -/

/-- Each event with what it tells of the connection; what tells nothing belongs to one that is
up. -/
def marked (events : List (TransportEvent J)) : List (Bool × TransportEvent J) :=
  events.map fun ev => (ev.lifecycle.getD true, ev)

def TransportEvent.tells (ev : TransportEvent J) : Bool := ev.lifecycle.isSome

theorem TransportEvent.tells_plain {ev : TransportEvent J} (plain : ev.plain = true) :
    ev.tells = false := by
  rw [tells, lifecycle_plain plain]
  rfl

theorem marked_plain {evs : List (TransportEvent J)} (silent : ∀ ev ∈ evs, ev.plain = true) :
    marked evs = evs.map (true, ·) := by
  refine List.map_congr_left fun ev member => ?_
  rw [TransportEvent.lifecycle_plain (silent ev member)]
  rfl

namespace HostLink

/-- Up to the events that wait, `up` is whether the connection is up. -/
structure Tracks (s : HostLink J D H) (up : Bool) : Prop where
  fed : Fed TransportEvent.tells TransportEvent.isData (some up)
    (marked (s.link.events.map Prod.snd))
  ends : current TransportEvent.tells (some up) (marked (s.link.events.map Prod.snd)) =
    some s.link.driver.connected
  authorized : s.session.authorized = true → up = true

variable {s s' : HostLink J D H} {up : Bool}

/-- Events are queued behind those that wait. -/
theorem Tracks.append (h : s.Tracks up) {k : Link J} {pc : Pc J} {evs : List (TransportEvent J)}
    (events : k.events = s.link.events ++ evs.map (pc, ·))
    (fed : Fed TransportEvent.tells TransportEvent.isData (some s.link.driver.connected)
      (marked evs))
    (ends : current TransportEvent.tells (some s.link.driver.connected) (marked evs) =
      some k.driver.connected) : Tracks { s with link := k } up := by
  have split : marked (k.events.map Prod.snd) =
      marked (s.link.events.map Prod.snd) ++ marked evs := by
    simp [events, marked, Function.comp_def]
  refine ⟨?_, ?_, h.authorized⟩
  · rw [split, fed_append, h.ends]
    exact ⟨h.fed, fed⟩
  · rw [split, current_append, h.ends]
    exact ends

theorem Tracks.driven [DecidableEq J] (h : s.Tracks up) {rtc : Rtc J} {l : DriverLabel J}
    {k : Link J} {out : List (DriverOut J)}
    (met : EventStream.ClosedBeforeRebuild ⟨s.link.driver, []⟩ l)
    (driven : Link.Driven rtc s.link l k out) : Tracks { s with link := k } up := by
  have told := Driver.step_emission driven.step
  have allowed := driven.allowed
  have events := driven.events
  generalize Driver.emissions out = evs at told events
  generalize after : k.driver = d' at told
  have quiet (silent : ∀ ev ∈ evs, ev.plain = true)
      (same : d'.connected = s.link.driver.connected) : Tracks { s with link := k } up := by
    obtain ⟨fed, stays⟩ := fed_plain (some s.link.driver.connected) true fun ev member =>
      ⟨TransportEvent.tells_plain (silent ev member),
        (TransportEvent.plain_iff (silent ev member)).2⟩
    refine h.append events (marked_plain silent ▸ fed) ?_
    rw [marked_plain silent, stays, after, same]
  cases told with
  | plain silent _ _ same => exact quiet silent same
  | opens before =>
      exact h.append events ⟨fun item => Bool.noConfusion item, trivial⟩ (by rw [after]; rfl)
  | closes before =>
      exact h.append events ⟨fun item => Bool.noConfusion item, trivial⟩ (by rw [after]; rfl)
  | reads bytes =>
      have up' : s.link.driver.connected = true := allowed.2
      exact h.append events ⟨fun _ => congrArg some up', trivial⟩ (by rw [after]; rfl)
  | renewed wanted silent new =>
      have closed : s.link.driver.connected = false :=
        Bool.eq_false_iff.mpr fun isOpen => met ⟨wanted, isOpen⟩
      exact quiet silent (new.connected.trans closed.symm)

/-- Only commands wait that did not, and who is authorized stays. -/
theorem Tracks.congr (h : s.Tracks up) (events : s'.link.events = s.link.events)
    (driver : s'.link.driver = s.link.driver)
    (authorized : s'.session.authorized = s.session.authorized) : s'.Tracks up := by
  refine ⟨?_, ?_, ?_⟩
  · rw [events]
    exact h.fed
  · rw [events, driver]
    exact h.ends
  · rw [authorized]
    exact h.authorized

/-- The event at the head of the queue is handled. -/
theorem Tracks.take {env : HostEnv D H} {rtc : Rtc J} {r : Readings} {pc : Pc J}
    {ev : TransportEvent J} {rest : List (Pc J × TransportEvent J)} (h : s.Tracks up)
    (queue : s.link.events = (pc, ev) :: rest) :
    ∃ up', (s.take env rtc r pc ev rest).Tracks up' := by
  obtain ⟨fed, ends, authorized⟩ := h
  rw [queue] at fed ends
  cases ev with
  | connected => exact ⟨true, fed.2, ends, fun set => Bool.noConfusion set⟩
  | disconnected =>
      refine ⟨false, fed.2, ends, fun set => ?_⟩
      have cleared := (HostSession.onDisconnected_cleared s.session r).1
      exact Bool.noConfusion (cleared.symm.trans set)
  | data bytes => exact ⟨up, fed.2, ends, fun _ => Option.some.inj (fed.1 rfl)⟩
  | localSignal msg => exact ⟨up, fed.2, ends, authorized⟩
  | video annexb tsHint => exact ⟨up, fed.2, ends, authorized⟩
  | keyframeRequested => exact ⟨up, fed.2, ends, authorized⟩

theorem start_tracks (rtc : Rtc J) (gathered : List String) (injector : Option Injector)
    (downloadDir : String) (disk : D) :
    (start (H := H) rtc gathered injector downloadDir disk).Tracks false := by
  obtain ⟨silent, closed⟩ := Driver.first_closed rtc true gathered
  obtain ⟨fed, stays⟩ := fed_plain (some false) true fun ev member =>
    And.intro (TransportEvent.tells_plain (silent ev member))
      (TransportEvent.plain_iff (silent ev member)).2
  have queue : marked ((start (H := H) rtc gathered injector downloadDir disk).link.events.map
      Prod.snd) = (Driver.emissions (Driver.first rtc true gathered).2).map (true, ·) := by
    rw [← marked_plain silent]
    simp [start, Link.start, Function.comp_def]
  refine ⟨queue ▸ fed, ?_, fun set => Bool.noConfusion set⟩
  rw [queue, stays]
  exact congrArg some closed.symm

end HostLink

/-! ## The host with the status it has reported -/

structure ReportedLink (J D H : Type) where
  host : HostLink J D H
  last : HostStatus

namespace ReportedLink

def reported (s : ReportedLink J D H) : Reported D H := ⟨s.host.session, s.last⟩

/-- What the session does on its next step. -/
def effects (env : HostEnv D H) (rtc : Rtc J) (s : ReportedLink J D H) :
    HostLabel J → List HostEffect
  | .handle r =>
    match s.host.link.events with
    | [] => []
    | (_, ev) :: _ => (s.host.session.onEvent env rtc.sdp r ev).2
  | _ => []

def step [DecidableEq J] (env : HostEnv D H) (rtc : Rtc J) (s : ReportedLink J D H)
    (l : HostLabel J) : Option (ReportedLink J D H) :=
  (s.host.step env rtc l).map fun host =>
    { host, last := lastStatus s.last (s.effects env rtc l) }

def machine [DecidableEq J] (env : HostEnv D H) (rtc : Rtc J) :
    Machine (ReportedLink J D H) (HostLabel J) where
  init s := ∃ gathered injector downloadDir disk,
    s = ⟨.start rtc gathered injector downloadDir disk, .waiting⟩
  step := step env rtc

/-- The flag is cleared by a `Disconnected` only, and no connection is replaced while the
`Connected` it emitted is open. -/
def Orderly (env : HostEnv D H) (s : ReportedLink J D H) : HostLabel J → Prop
  | .handle r =>
    ∀ e ∈ s.host.link.events.head?, Reported.ClearedByDisconnect env s.reported (.event e.2 r)
  | .driver l => EventStream.ClosedBeforeRebuild ⟨s.host.link.driver, []⟩ l
  | _ => True

instance (env : HostEnv D H) (s : ReportedLink J D H) : ∀ l, Decidable (Orderly env s l)
  | .handle r => inferInstanceAs (Decidable (∀ e ∈ s.host.link.events.head?,
      Reported.ClearedByDisconnect env s.reported (.event e.2 r)))
  | .driver l =>
    inferInstanceAs (Decidable (EventStream.ClosedBeforeRebuild ⟨s.host.link.driver, []⟩ l))
  | .signal _ | .peerSwitched | .geometryChanged _ _ | .video _ | .send _ => .isTrue trivial

variable [DecidableEq J] {env : HostEnv D H} {rtc : Rtc J} {s s' : ReportedLink J D H}
  {l : HostLabel J}

/-- For the session a step is one of its own, or none. -/
theorem settled_step (h : s.reported.Settled) (met : Orderly env s l)
    (taken : step env rtc s l = some s') : s'.reported.Settled := by
  obtain ⟨host, moved, rfl⟩ := Option.map_eq_some_iff.mp taken
  cases l with
  | handle r =>
      simp only [HostLink.step] at moved
      split at moved
      · cases moved
      · rename_i pc ev rest queue
        obtain rfl := Option.some.inj moved
        have cleared := met (pc, ev) (by rw [queue]; rfl)
        have same : s.effects env rtc (.handle r) =
            (s.host.session.onEvent env rtc.sdp r ev).2 := by
          rw [effects, queue]
        have turn : Reported.step env rtc.sdp s.reported (.event ev r) = some _ := rfl
        rw [same]
        exact h.step cleared turn
  | signal msg =>
      obtain rfl := Option.some.inj moved
      have turn : Reported.step env rtc.sdp s.reported (.signal msg) = some _ := rfl
      have clears : Reported.ClearedByDisconnect env s.reported (.signal msg) := trivial
      exact h.step clears turn
  | geometryChanged rect built =>
      obtain rfl := Option.some.inj moved
      have turn : Reported.step env rtc.sdp s.reported (.geometryChanged rect built) = some _ := rfl
      have clears : Reported.ClearedByDisconnect env s.reported
        (HostSession.Input.geometryChanged (J := J) rect built) := trivial
      exact h.step clears turn
  | peerSwitched | video frame | send e =>
      obtain rfl := Option.some.inj moved
      exact h
  | driver l =>
      obtain ⟨k, -, rfl⟩ := Option.map_eq_some_iff.mp moved
      exact h

theorem tracks_step {up : Bool} (h : s.host.Tracks up) (met : Orderly env s l)
    (taken : step env rtc s l = some s') : ∃ up', s'.host.Tracks up' := by
  obtain ⟨host, moved, rfl⟩ := Option.map_eq_some_iff.mp taken
  cases l with
  | handle r =>
      simp only [HostLink.step] at moved
      split at moved
      · cases moved
      · rename_i pc ev rest queue
        obtain rfl := Option.some.inj moved
        exact h.take queue
  | driver l =>
      obtain ⟨⟨k, out⟩, driven, rfl⟩ := Option.map_eq_some_iff.mp moved
      exact ⟨up, h.driven met (Link.drive_cases driven)⟩
  | signal msg | peerSwitched | geometryChanged rect built | video frame | send e =>
      obtain rfl := Option.some.inj moved
      exact ⟨up, h.congr rfl rfl rfl⟩

theorem orderly_run (run : (machine env rtc).ReachableBy (Orderly env) s) :
    s.reported.Settled ∧ (∃ cur, s.host.Bound env cur) ∧ ∃ up, s.host.Tracks up := by
  refine run.invariant (I := fun s =>
    s.reported.Settled ∧ (∃ cur, s.host.Bound env cur) ∧ ∃ up, s.host.Tracks up) ?_ ?_
  · rintro s ⟨gathered, injector, downloadDir, disk, rfl⟩
    exact ⟨Reported.start_settled injector downloadDir disk,
      ⟨none, HostLink.start_bound env rtc gathered injector downloadDir disk⟩,
      ⟨false, HostLink.start_tracks rtc gathered injector downloadDir disk⟩⟩
  · rintro s l s' ⟨settled, ⟨cur, bound⟩, ⟨up, tracks⟩⟩ met taken
    obtain ⟨host, moved, same⟩ := Option.map_eq_some_iff.mp taken
    refine ⟨settled_step settled met taken, ?_, tracks_step tracks met taken⟩
    rw [← same]
    exact bound.step moved

omit [DecidableEq J] in
/-- Once all events are handled, the flag is that of the connection that is up, and of its own
`Hello`. -/
theorem up_of_authorized {cur : Option Nat} {up : Bool} (bound : s.host.Bound env cur)
    (tracks : s.host.Tracks up) (handled : s.host.link.events = [])
    (authorized : s.host.session.authorized = true) :
    s.host.link.driver.connected = true ∧
      s.host.lastHello = some (s.host.link.driver.pc.id, true) := by
  have ends := tracks.ends
  rw [handled, tracks.authorized authorized] at ends
  have connected : s.host.link.driver.connected = true := (Option.some.inj ends).symm
  refine ⟨connected, ?_⟩
  obtain ⟨p, here, hello⟩ := bound.authorized authorized
  have now := bound.feeding.up connected
  rw [handled] at now
  obtain rfl := Option.some.inj (here.symm.trans now)
  exact hello

end ReportedLink

namespace Reported

/-- In every run that clears the flag by a `Disconnected` only, the last status is `Active`
exactly while the viewer is authorized; the first other step ends the agreement. With the driver
beside it, once all events are handled that viewer is the one whose connection is up. -/
theorem status_agrees [DecidableEq J] (env : HostEnv D H) :
    (∀ (sdp : J → Option String) (s : Reported D H),
      (machine env sdp).ReachableBy (ClearedByDisconnect env) s →
        s.Agrees ∧ ∀ i s', step env sdp s i = some s' → (s'.Agrees ↔ ClearedByDisconnect env s i)) ∧
    ∀ (rtc : Rtc J) (s : ReportedLink J D H),
      (ReportedLink.machine env rtc).ReachableBy (ReportedLink.Orderly env) s →
        s.reported.Agrees ∧ (s.host.link.events = [] → s.last = .active →
          s.host.link.driver.connected = true ∧
            s.host.lastHello = some (s.host.link.driver.pc.id, true)) := by
  refine ⟨fun sdp s run => ?_, fun rtc s run => ?_⟩
  · have settled := settled_run run
    exact ⟨settled.agrees, fun _ _ taken => settled.agrees_step taken⟩
  · obtain ⟨settled, ⟨cur, bound⟩, ⟨up, tracks⟩⟩ := ReportedLink.orderly_run run
    refine ⟨settled.agrees, fun handled active => ?_⟩
    exact ReportedLink.up_of_authorized bound tracks handled (settled.agrees.mp active)

/-- A viewer that reconnects; and one that stays, beside its driver. -/
theorem status_agrees_reconnect :
    (∃ s : Reported Unit Unit, s.last = .active ∧ s.Agrees ∧ ∀ i s',
      step sampleEnv sampleRtc.sdp s i = some s' →
        (s'.Agrees ↔ ClearedByDisconnect sampleEnv s i)) ∧
    ∃ s : ReportedLink String Unit Unit, s.last = .active ∧
      s.host.link.driver.connected = true ∧
        s.host.lastHello = some (s.host.link.driver.pc.id, true) := by
  obtain ⟨session, link⟩ := status_agrees (J := String) sampleEnv
  constructor
  · obtain ⟨s, run, active⟩ := Machine.exists_reachableBy (machine sampleEnv sampleRtc.sdp)
      (ClearedByDisconnect sampleEnv) ⟨none, "", (), rfl⟩
      (HostSession.authorizes ++ .event .disconnected .sample :: HostSession.authorizes)
      (fun s => s.last = .active) (by decide)
    exact ⟨s, active, session sampleRtc.sdp s run⟩
  · obtain ⟨s, run, active, handled⟩ := Machine.exists_reachableBy
      (ReportedLink.machine (D := Unit) (H := Unit) sampleEnv sampleRtc)
      (ReportedLink.Orderly sampleEnv) ⟨[], none, "", (), rfl⟩
      (HostLink.viewerSends "a=fingerprint:sha-256 AB" [sampleHello "SHA-256 AB" "taco"] ++
        List.replicate 3 (.handle .sample))
      (fun s => s.last = .active ∧ s.host.link.events.length = 0) (by decide)
    exact ⟨s, active, (link sampleRtc s run).2 (List.length_eq_zero_iff.mp handled) active⟩

end Reported
end ReachMyDevice
