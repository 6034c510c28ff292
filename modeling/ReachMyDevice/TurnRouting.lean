import Mathlib.Data.Finset.Basic
import ReachMyDevice.Lib.Machine
import ReachMyDevice.Protocol

/-!
# Datagrams by a TURN relay

The host sends a datagram directly, or through the relay to a peer that relayed
data came from. Before the first datagram to an address it asks for a permission.
The calls of the client fail or not, as the labels say.
-/
namespace ReachMyDevice
open Machines

/-- The routing state beside the client. The sets are keyed by address and by IP. -/
structure TurnRelay (Addr Ip : Type) where
  relayedPeers : Finset Addr
  permitted : Finset Ip

/-- How the calls that are made for a datagram end: `relay` twice, and the two of the relay. -/
structure RouteIo where
  relay : Bool
  createPermission : Bool
  relayAgain : Bool
  sendTo : Bool

/-- A call that hands something over. An error of the socket is logged, one of the client is not. -/
inductive DatagramCall (Addr : Type)
  | createPermission (peer : Addr) (ok : Bool)
  | relay (peer : Addr) (message : Bytes) (ok : Bool)
  | socket (peer : Addr) (message : Bytes)
  deriving DecidableEq

def DatagramCall.carries {Addr : Type} : DatagramCall Addr → Bool
  | .createPermission .. => false
  | _ => true

inductive TurnLabel (Addr : Type)
  /-- A datagram is polled from the peer connection. -/
  | datagram (peer : Addr) (message : Bytes) (io : RouteIo)
  /-- The client has data that was relayed; the peer connection is handed it. -/
  | relayed (peer : Addr) (data : Bytes)
  | reset

namespace TurnRelay
variable {Addr Ip : Type} [DecidableEq Addr] [DecidableEq Ip] (ip : Addr → Ip)
  (t : TurnRelay Addr Ip) (io : RouteIo) (peer : Addr) (message : Bytes)

def resetSession (_ : TurnRelay Addr Ip) : TurnRelay Addr Ip where
  relayedPeers := ∅
  permitted := ∅

/-- `drain_events`, for one event. -/
def drainEvent (from_ : Addr) : TurnRelay Addr Ip :=
  { t with relayedPeers := insert from_ t.relayedPeers }

def routeOut : Bool × TurnRelay Addr Ip × List (DatagramCall Addr) :=
  let asked :=
    if ip peer ∉ t.permitted then
      if io.relay then [.createPermission peer io.createPermission] else []
    else []
  let t' := { t with permitted := insert (ip peer) t.permitted }
  if peer ∈ t'.relayedPeers then
    (true, t', asked ++ if io.relayAgain then [.relay peer message io.sendTo] else [])
  else (false, t', asked)

/-- The event loop, with a datagram that it polled. -/
def flush (turn : Option (TurnRelay Addr Ip)) :
    Option (TurnRelay Addr Ip) × List (DatagramCall Addr) :=
  let routed := turn.map fun t => t.routeOut ip io peer message
  let relayed := (routed.map Prod.fst).getD false
  let calls := (routed.map fun r => r.2.2).getD []
  (routed.map fun r => r.2.1, if relayed then calls else calls ++ [.socket peer message])

def turnStep : TurnLabel Addr → TurnRelay Addr Ip
  | .datagram peer message io => (t.routeOut ip io peer message).2.1
  | .relayed from_ _ => t.drainEvent from_
  | .reset => t.resetSession

def machine : Machine (TurnRelay Addr Ip) (TurnLabel Addr) where
  init t := t = ⟨∅, ∅⟩
  step t l := some (t.turnStep ip l)

/-- The next datagram to the address asks for a permission. -/
def Asks : Prop := ∀ io : RouteIo, io.relay = true → ∀ message,
  .createPermission peer io.createPermission ∈ (t.routeOut ip io peer message).2.2

end TurnRelay

/-! ## What has happened -/

/-- A datagram that was polled, with the calls that were made for it. -/
structure Polled (Addr : Type) where
  peer : Addr
  message : Bytes
  /-- Relayed data had come from the address since the last reset. -/
  relayed : Bool
  calls : List (DatagramCall Addr)

/-- It went one way, through the relay if data had come from there, and was taken. -/
def Polled.Delivered {Addr : Type} (d : Polled Addr) : Prop :=
  d.calls.filter (·.carries) =
    [if d.relayed then .relay d.peer d.message true else .socket d.peer d.message]

instance {Addr : Type} [DecidableEq Addr] (d : Polled Addr) : Decidable d.Delivered :=
  inferInstanceAs (Decidable (_ = _))

/-- The sets are since the last reset, the datagrams since the start. -/
structure RoutingLog (Addr Ip : Type) where
  sent : Finset Addr
  received : Finset Addr
  accepted : Finset Ip
  polled : List (Polled Addr)

namespace RoutingLog
variable {Addr Ip : Type} [DecidableEq Addr] [DecidableEq Ip] (ip : Addr → Ip)

def acceptedIps (calls : List (DatagramCall Addr)) : Finset Ip :=
  (calls.filterMap fun
    | .createPermission peer true => some (ip peer)
    | _ => none).toFinset

def note (t : TurnRelay Addr Ip) (l : TurnLabel Addr) (log : RoutingLog Addr Ip) :
    RoutingLog Addr Ip :=
  match l with
  | .datagram peer message io =>
    let calls := (TurnRelay.flush ip io peer message (some t)).2
    { log with
      sent := insert peer log.sent
      accepted := log.accepted ∪ acceptedIps ip calls
      polled := log.polled ++ [{ peer, message, calls, relayed := decide (peer ∈ log.received) }] }
  | .relayed from_ _ => { log with received := insert from_ log.received }
  | .reset => { log with sent := ∅, received := ∅, accepted := ∅ }

/-- The relay beside a record of what it was given and did. -/
def machine : Machine (TurnRelay Addr Ip × RoutingLog Addr Ip) (TurnLabel Addr) :=
  (TurnRelay.machine ip).recording (fun _ => ⟨∅, ∅, ∅, []⟩) fun t l _ log => log.note ip t l

/-- Nothing was sent or received. -/
def start : TurnRelay Addr Ip × RoutingLog Addr Ip := (⟨∅, ∅⟩, ⟨∅, ∅, ∅, []⟩)

/-- What is asked of the routing. -/
structure Routed (s : TurnRelay Addr Ip × RoutingLog Addr Ip) : Prop where
  delivered : ∀ d ∈ s.2.polled, d.Delivered
  permitted : ∀ peer ∈ s.2.sent, ip peer ∈ s.2.accepted ∨ s.1.Asks ip peer

/-- The calls do not fail: of a datagram to a new IP the permission, and of a datagram to a peer
that is relayed the sending. -/
def Goes (s : TurnRelay Addr Ip × RoutingLog Addr Ip) : TurnLabel Addr → Prop
  | .datagram peer _ io =>
    (ip peer ∉ s.1.permitted → io.relay = true ∧ io.createPermission = true) ∧
      (peer ∈ s.1.relayedPeers → io.relayAgain = true ∧ io.sendTo = true)
  | _ => True

variable {ip} {t : TurnRelay Addr Ip} {io : RouteIo} {peer : Addr} {message : Bytes}

/-! ## One datagram -/

variable (ip t io peer message) in
/-- The request for a permission, if one is made. -/
def asked : List (DatagramCall Addr) :=
  if ip peer ∉ t.permitted ∧ io.relay = true then [.createPermission peer io.createPermission]
  else []

variable (t io peer message) in
/-- What carries the datagram. -/
def carried : List (DatagramCall Addr) :=
  if peer ∈ t.relayedPeers then
    if io.relayAgain then [.relay peer message io.sendTo] else []
  else [.socket peer message]

theorem routeOut_eq : t.routeOut ip io peer message =
    (decide (peer ∈ t.relayedPeers), { t with permitted := insert (ip peer) t.permitted },
      asked ip t io peer ++ if peer ∈ t.relayedPeers then carried t io peer message else []) := by
  rw [TurnRelay.routeOut, ← ite_and, asked, carried]
  dsimp only
  by_cases relayed : peer ∈ t.relayedPeers
  · simp only [if_pos relayed, decide_eq_true relayed]
  · simp only [if_neg relayed, decide_eq_false relayed, List.append_nil]

theorem flush_calls : (TurnRelay.flush ip io peer message (some t)).2 =
    asked ip t io peer ++ carried t io peer message := by
  simp only [TurnRelay.flush, routeOut_eq, Option.map_some, Option.getD_some]
  by_cases relayed : peer ∈ t.relayedPeers
  · simp only [decide_eq_true relayed, if_true, if_pos relayed]
  · simp only [carried, decide_eq_false relayed, if_neg relayed, List.append_nil]
    rfl

/-- What asks for a permission carries nothing, and what carries asks for none. -/
theorem mem_acceptedIps {i : Ip} :
    i ∈ acceptedIps ip (asked ip t io peer ++ carried t io peer message) ↔
      i = ip peer ∧ ip peer ∉ t.permitted ∧ io.relay = true ∧ io.createPermission = true := by
  rw [acceptedIps, List.mem_toFinset, List.filterMap_append, asked, carried]
  cases io.createPermission <;> cases io.relay <;> split_ifs <;> simp_all

theorem filter_calls : (asked ip t io peer ++ carried t io peer message).filter (·.carries) =
    carried t io peer message := by
  rw [List.filter_append, asked, carried]
  split_ifs <;> rfl

omit [DecidableEq Ip] in
theorem carried_eq_iff : carried t io peer message =
    [if decide (peer ∈ t.relayedPeers) then .relay peer message true else .socket peer message] ↔
      (peer ∈ t.relayedPeers → io.relayAgain = true ∧ io.sendTo = true) := by
  rw [carried]
  by_cases relayed : peer ∈ t.relayedPeers
  · cases io.relayAgain <;> cases io.sendTo <;> simp [relayed]
  · simp [relayed]

/-- An IP is asked for once, whatever comes of it. -/
theorem asks_iff : t.Asks ip peer ↔ ip peer ∉ t.permitted := by
  constructor
  · intro asks known
    have call := asks ⟨true, true, true, true⟩ rfl []
    rw [routeOut_eq] at call
    simp only [asked, carried, known, not_true, false_and, if_false, List.nil_append] at call
    split_ifs at call <;> simp at call
  · intro fresh io works message
    rw [routeOut_eq, asked, if_pos ⟨fresh, works⟩]
    exact List.mem_append_left _ List.mem_cons_self

/-! ## Runs -/

variable (ip) in
/-- The sets are those of the record, and what was asked for was accepted. -/
structure Kept (s : TurnRelay Addr Ip × RoutingLog Addr Ip) : Prop where
  relayed : s.1.relayedPeers = s.2.received
  accepted : s.1.permitted = s.2.accepted
  sent : ∀ peer ∈ s.2.sent, ip peer ∈ s.2.accepted
  delivered : ∀ d ∈ s.2.polled, d.Delivered

variable {s s' : TurnRelay Addr Ip × RoutingLog Addr Ip} {l : TurnLabel Addr}

theorem Kept.routed (kept : Kept ip s) : Routed ip s :=
  ⟨kept.delivered, fun peer sent => .inl (kept.sent peer sent)⟩

omit [DecidableEq Addr] [DecidableEq Ip] in
theorem Kept.start : Kept ip start :=
  ⟨rfl, rfl, by simp [RoutingLog.start], by simp [RoutingLog.start]⟩

theorem reachable_start : (machine ip).Reachable start := .start ⟨rfl, rfl⟩

theorem step_eq (step : (machine ip).step s l = some s') :
    s' = (s.1.turnStep ip l, s.2.note ip s.1 l) := by
  obtain ⟨relay, noted⟩ := Machine.recording_step_iff.mp step
  exact Prod.ext (Option.some.inj relay).symm noted

/-- Whether a datagram that is polled is delivered. -/
theorem Kept.delivered_iff (kept : Kept ip s) {peer : Addr} {message : Bytes} {io : RouteIo} :
    Polled.Delivered ⟨peer, message, decide (peer ∈ s.2.received),
      (TurnRelay.flush ip io peer message (some s.1)).2⟩ ↔
        (peer ∈ s.1.relayedPeers → io.relayAgain = true ∧ io.sendTo = true) := by
  rw [Polled.Delivered, flush_calls, filter_calls, ← kept.relayed]
  exact carried_eq_iff

/-- A request that is accepted keeps the record of the permissions. -/
theorem permitted_eq {peer : Addr} {message : Bytes} {io : RouteIo}
    (asks : ip peer ∉ t.permitted → io.relay = true ∧ io.createPermission = true) :
    insert (ip peer) t.permitted =
      t.permitted ∪ acceptedIps ip (TurnRelay.flush ip io peer message (some t)).2 := by
  ext i
  rw [flush_calls, Finset.mem_insert, Finset.mem_union, mem_acceptedIps]
  constructor
  · rintro (rfl | old)
    · by_cases known : ip peer ∈ t.permitted
      · exact .inl known
      · exact .inr ⟨rfl, known, asks known⟩
    · exact .inl old
  · rintro (old | ⟨rfl, -⟩)
    · exact .inr old
    · exact .inl rfl

theorem Kept.step (kept : Kept ip s) (goes : Goes ip s l)
    (step : (machine ip).step s l = some s') : Kept ip s' := by
  obtain rfl := step_eq step
  cases l with
  | relayed from_ data =>
      exact { kept with relayed := congrArg (insert from_) kept.relayed }
  | reset =>
      exact { kept with relayed := rfl, accepted := rfl, sent := by simp [note] }
  | datagram peer message io =>
      obtain ⟨asks, sends⟩ := goes
      have accepted : insert (ip peer) s.1.permitted =
          s.2.accepted ∪ acceptedIps ip (TurnRelay.flush ip io peer message (some s.1)).2 := by
        rw [← kept.accepted]
        exact permitted_eq asks
      refine ⟨?_, ?_, fun other member => ?_, fun d member => ?_⟩
      · rw [TurnRelay.turnStep, routeOut_eq]
        exact kept.relayed
      · rw [TurnRelay.turnStep, routeOut_eq]
        exact accepted
      · change ip other ∈ s.2.accepted ∪ acceptedIps ip _
        obtain rfl | old := Finset.mem_insert.mp member
        · exact accepted ▸ Finset.mem_insert_self _ _
        · exact Finset.mem_union_left _ (kept.sent other old)
      · obtain old | new := List.mem_append.mp member
        · exact kept.delivered d old
        · obtain rfl := List.mem_singleton.mp new
          exact kept.delivered_iff.mpr sends

/-- A step after which the routing still is as asked is one whose calls do not fail. -/
theorem Kept.routed_step_iff (kept : Kept ip s) (step : (machine ip).step s l = some s') :
    Routed ip s' ↔ Goes ip s l := by
  refine ⟨fun routed => ?_, fun goes => (kept.step goes step).routed⟩
  obtain rfl := step_eq step
  cases l with
  | relayed from_ data => trivial
  | reset => trivial
  | datagram peer message io =>
      have polled := routed.delivered ⟨peer, message, decide (peer ∈ s.2.received),
        (TurnRelay.flush ip io peer message (some s.1)).2⟩
          (List.mem_append_right _ (List.mem_singleton_self _))
      refine ⟨fun fresh => ?_, kept.delivered_iff.mp polled⟩
      obtain accepted | again := routed.permitted peer (Finset.mem_insert_self _ _)
      · obtain old | new := Finset.mem_union.mp accepted
        · exact absurd (kept.accepted ▸ old) fresh
        · rw [flush_calls, mem_acceptedIps] at new
          exact new.2.2
      · refine absurd ?_ (asks_iff.mp again)
        rw [TurnRelay.turnStep, routeOut_eq]
        exact Finset.mem_insert_self _ _

/-- While no call fails every datagram is routed as asked, and the first failure ends that: a
request that failed is not repeated, a datagram that was not sent is lost. -/
theorem routed_runs (ip : Addr → Ip) :
    (∀ s, (machine ip).ReachableBy (Goes ip) s → Routed ip s) ∧
      ∀ s, (machine ip).ReachableBy (Goes ip) s → ∀ l s', (machine ip).step s l = some s' →
        (Routed ip s' ↔ Goes ip s l) := by
  have kept : ∀ s, (machine ip).ReachableBy (Goes ip) s → Kept ip s := fun s run =>
    run.invariant (I := Kept ip)
      (by
        rintro ⟨t, log⟩ ⟨first, start⟩
        obtain rfl : t = ⟨∅, ∅⟩ := first
        obtain rfl : log = ⟨∅, ∅, ∅, []⟩ := start
        exact .start)
      (fun s l s' kept goes step => kept.step goes step)
  exact ⟨fun s run => (kept s run).routed, fun s run l s' step => (kept s run).routed_step_iff step⟩

/-- A permission that was refused is not asked for with the next datagram, which goes directly;
and a datagram to a relayed peer is lost where the client has no relay for it. -/
theorem routing_fails :
    (∃ s, (machine (Prod.fst : Nat × Nat → Nat)).Reachable s ∧
      s.2.polled.map (·.calls) =
        [[.createPermission (1, 7) false, .socket (1, 7) [5]], [.socket (1, 7) [6]]] ∧
      ¬Routed Prod.fst s) ∧
    ∃ s, (machine (Prod.fst : Nat × Nat → Nat)).Reachable s ∧
      s.2.polled.map (·.calls) = [[.createPermission (1, 7) true]] ∧ ¬Routed Prod.fst s := by
  refine ⟨⟨_, .next (a := .datagram (1, 7) [6] ⟨true, true, true, true⟩)
      (.next (a := .datagram (1, 7) [5] ⟨true, false, true, true⟩)
        reachable_start trivial rfl) trivial rfl,
      by decide, fun routed => ?_⟩,
    ⟨_, .next (a := .datagram (1, 7) [5] ⟨true, true, false, true⟩)
      (.next (a := .relayed (1, 7) [])
        reachable_start trivial rfl) trivial rfl,
      by decide, fun routed => ?_⟩⟩
  · obtain accepted | again := routed.permitted (1, 7) (by decide)
    · exact absurd accepted (by decide)
    · exact asks_iff.mp again (by decide)
  · exact absurd (routed.delivered _ (List.mem_singleton_self _)) (by decide)

end RoutingLog

end ReachMyDevice
