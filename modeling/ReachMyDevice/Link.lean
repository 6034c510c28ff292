import ReachMyDevice.Lib.Feed
import ReachMyDevice.DriverStep

/-!
# A driver between its two channels

Application commands wait in one channel, transport events in the other. Each
event is tagged with the peer connection that emitted it, as it then was.
-/
namespace ReachMyDevice
open Driver Feed

structure Link (J : Type) where
  driver : Driver J
  commands : List (DriverCmd J)
  events : List (Pc J × TransportEvent J)
  deriving DecidableEq, Repr

def TransportEvent.isConnected {J : Type} : TransportEvent J → Bool
  | .connected => true
  | _ => false

def TransportEvent.isData {J : Type} : TransportEvent J → Bool
  | .data _ => true
  | _ => false

theorem TransportEvent.plain_iff {J : Type} {ev : TransportEvent J} (plain : ev.plain = true) :
    ev.isConnected = false ∧ ev.isData = false := by
  cases ev with
  | connected | disconnected | data => cases plain
  | _ => exact ⟨rfl, rfl⟩

namespace Link
variable {J : Type}

def post (k : Link J) (cmds : List (DriverCmd J)) : Link J :=
  { k with commands := k.commands ++ cmds }

/-- A driver with the events of its first peer connection. -/
def start (rtc : Rtc J) (isHost : Bool) (gathered : List String) : Link J where
  driver := (first rtc isHost gathered).1
  commands := []
  events := (emissions (first rtc isHost gathered).2).map ((first rtc isHost gathered).1.pc, ·)

section
variable [DecidableEq J]

/-- The commands left by a step: one is taken from the front, or none is found. -/
def takeCommand (commands : List (DriverCmd J)) : DriverLabel J → Option (List (DriverCmd J))
  | .command cmd _ =>
    match commands with
    | [] => none
    | c :: rest => if c = cmd then some rest else none
  | .commandsDone => if commands = [] then some [] else none
  | _ => some commands

def advance (rtc : Rtc J) (k : Link J) (l : DriverLabel J) : Option (Link J × List (DriverOut J)) :=
  (takeCommand k.commands l).bind fun commands =>
    (k.driver.step rtc l).map fun r =>
      ({ driver := r.1, commands, events := k.events ++ (emissions r.2).map (r.1.pc, ·) }, r.2)

/-- A step under what is assumed of the library. -/
def drive (rtc : Rtc J) (k : Link J) (l : DriverLabel J) : Option (Link J × List (DriverOut J)) :=
  if libAllows rtc k.driver l then k.advance rtc l else none

/-- What a driver step does to a link. -/
structure Advanced (rtc : Rtc J) (k : Link J) (l : DriverLabel J) (k' : Link J)
    (out : List (DriverOut J)) : Prop where
  commands : takeCommand k.commands l = some k'.commands
  step : k.driver.step rtc l = some (k'.driver, out)
  events : k'.events = k.events ++ (emissions out).map (k'.driver.pc, ·)

structure Driven (rtc : Rtc J) (k : Link J) (l : DriverLabel J) (k' : Link J)
    (out : List (DriverOut J)) : Prop extends Advanced rtc k l k' out where
  allowed : libAllows rtc k.driver l

theorem advance_cases {rtc : Rtc J} {k k' : Link J} {l : DriverLabel J} {out : List (DriverOut J)}
    (h : advance rtc k l = some (k', out)) : Advanced rtc k l k' out := by
  simp only [advance, Option.bind_eq_some_iff, Option.map_eq_some_iff] at h
  obtain ⟨commands, left, ⟨d, o⟩, step, same⟩ := h
  cases same
  exact ⟨left, step, rfl⟩

theorem drive_cases {rtc : Rtc J} {k k' : Link J} {l : DriverLabel J} {out : List (DriverOut J)}
    (h : drive rtc k l = some (k', out)) : Driven rtc k l k' out := by
  obtain ⟨allowed, advanced⟩ := Option.ite_none_right_eq_some.mp h
  exact ⟨advance_cases advanced, allowed⟩

theorem takeCommand_subset {commands left : List (DriverCmd J)} {l : DriverLabel J}
    (h : takeCommand commands l = some left) {c : DriverCmd J} (member : c ∈ left) :
    c ∈ commands := by
  cases l with
  | command cmd outcome =>
      cases commands with
      | nil => cases h
      | cons head rest =>
          simp only [takeCommand, Option.ite_none_right_eq_some, Option.some.injEq] at h
          rw [h.2]
          exact List.mem_cons_of_mem _ member
  | commandsDone =>
      simp only [takeCommand, Option.ite_none_right_eq_some, Option.some.injEq] at h
      rw [← h.2] at member
      cases member
  | _ =>
      cases h
      exact member

theorem takeCommand_taken {commands left : List (DriverCmd J)} {cmd : DriverCmd J}
    {outcome : SetRemote} (h : takeCommand commands (.command cmd outcome) = some left) :
    cmd ∈ commands := by
  cases commands with
  | nil => cases h
  | cons head rest =>
      simp only [takeCommand, Option.ite_none_right_eq_some, Option.some.injEq] at h
      rw [h.1]
      exact List.mem_cons_self

end

/-! ## Which connection a queued message belongs to -/

def tagged (events : List (Pc J × TransportEvent J)) : List (Nat × TransportEvent J) :=
  events.map fun e => (e.1.id, e.2)

/-- Every queued message follows the `Connected` of its own connection, `cur` being the
connection whose `Connected` was taken from the queue last. -/
structure Feeding (k : Link J) (cur : Option Nat) : Prop where
  fed : Fed TransportEvent.isConnected TransportEvent.isData cur (tagged k.events)
  up : k.driver.connected = true →
    current TransportEvent.isConnected cur (tagged k.events) = some k.driver.pc.id

theorem tagged_append (l m : List (Pc J × TransportEvent J)) :
    tagged (l ++ m) = tagged l ++ tagged m := List.map_append

theorem tagged_emitted (pc : Pc J) (evs : List (TransportEvent J)) :
    tagged (evs.map (pc, ·)) = evs.map (pc.id, ·) := by
  simp [tagged, Function.comp_def]

theorem Feeding.append {k k' : Link J} {cur : Option Nat} {evs : List (TransportEvent J)}
    (h : Feeding k cur) (events : k'.events = k.events ++ evs.map (k'.driver.pc, ·))
    (fed : Fed TransportEvent.isConnected TransportEvent.isData
      (current TransportEvent.isConnected cur (tagged k.events)) (evs.map (k'.driver.pc.id, ·)))
    (up : k'.driver.connected = true →
      current TransportEvent.isConnected (current TransportEvent.isConnected cur (tagged k.events))
        (evs.map (k'.driver.pc.id, ·)) = some k'.driver.pc.id) : Feeding k' cur := by
  have split : tagged k'.events = tagged k.events ++ evs.map (k'.driver.pc.id, ·) := by
    rw [events, tagged_append, tagged_emitted]
  refine ⟨?_, fun connected => ?_⟩
  · rw [split, fed_append]
    exact ⟨h.fed, fed⟩
  · rw [split, current_append]
    exact up connected

theorem Feeding.driven [DecidableEq J] {rtc : Rtc J} {k k' : Link J} {l : DriverLabel J}
    {out : List (DriverOut J)} {cur : Option Nat} (h : Feeding k cur)
    (driven : Driven rtc k l k' out) : Feeding k' cur := by
  have told := step_emission driven.step
  have allowed := driven.allowed
  have events := driven.events
  generalize emissions out = evs at told events
  generalize after : k'.driver = d' at told
  have quiet (silent : ∀ ev ∈ evs, ev.plain = true)
      (up : d'.connected = true → k.driver.connected = true ∧ k.driver.pc.id = d'.pc.id) :
      Feeding k' cur := by
    obtain ⟨fed, stays⟩ := fed_plain (current TransportEvent.isConnected cur (tagged k.events))
      k'.driver.pc.id fun ev member => TransportEvent.plain_iff (silent ev member)
    refine h.append events fed fun connected => ?_
    rw [after] at connected ⊢
    rw [after] at stays
    rw [stays, h.up (up connected).1, (up connected).2]
  cases told with
  | plain silent _ id same => exact quiet silent fun connected => ⟨same ▸ connected, id.symm⟩
  | renewed _ silent new =>
      exact quiet silent fun connected => by simp [new.connected] at connected
  | opens before =>
      refine h.append events ?_ fun _ => ?_
      · exact ⟨fun item => Bool.noConfusion item, trivial⟩
      · rfl
  | closes before =>
      refine h.append events ?_ fun connected => ?_
      · exact ⟨fun item => Bool.noConfusion item, trivial⟩
      · rw [after] at connected
        cases connected
  | reads bytes =>
      have up := h.up allowed.2
      refine h.append events ?_ fun _ => ?_
      · rw [after]
        exact ⟨fun _ => up, trivial⟩
      · rw [after]
        exact up

theorem Feeding.start (rtc : Rtc J) (isHost : Bool) (gathered : List String) :
    Feeding (Link.start rtc isHost gathered) none := by
  obtain ⟨silent, closed⟩ := first_closed rtc isHost gathered
  have fed := fed_plain none (Link.start rtc isHost gathered).driver.pc.id
    fun ev member => TransportEvent.plain_iff (silent ev member)
  refine ⟨?_, fun connected => ?_⟩
  · simp only [Link.start, tagged_emitted]
    exact fed.1
  · exact Bool.noConfusion (closed.symm.trans connected)

theorem Feeding.post {k : Link J} {cur : Option Nat} (h : Feeding k cur)
    (cmds : List (DriverCmd J)) : Feeding (k.post cmds) cur := ⟨h.fed, h.up⟩

/-- Taking the first event off the queue. -/
theorem Feeding.next {k : Link J} {cur : Option Nat} {pc : Pc J} {ev : TransportEvent J}
    {rest : List (Pc J × TransportEvent J)} (h : Feeding k cur)
    (events : k.events = (pc, ev) :: rest) :
    (ev.isData = true → cur = some pc.id) ∧
      Feeding { k with events := rest } (if ev.isConnected then some pc.id else cur) := by
  obtain ⟨fed, up⟩ := h
  rw [events] at fed up
  exact ⟨fed.1, fed.2, up⟩

/-! ## The descriptions in flight -/

def commandDescription (isHost : Bool) : DriverCmd J → Option J
  | .signal msg => describes isHost msg
  | _ => none

def eventDescription : Pc J × TransportEvent J → Option J
  | (pc, .data _) => pc.remoteDescription
  | _ => none

/-- The descriptions of peers that are applied, are still to be applied, or whose messages
are still queued. -/
def descriptions (k : Link J) : List J :=
  k.driver.descriptions ++ k.commands.filterMap (commandDescription k.driver.isHost) ++
    k.events.filterMap eventDescription

theorem mem_descriptions {k : Link J} {json : J} : json ∈ k.descriptions ↔
    json ∈ k.driver.descriptions ∨
      (∃ c ∈ k.commands, commandDescription k.driver.isHost c = some json) ∨
      ∃ e ∈ k.events, eventDescription e = some json := by
  simp only [descriptions, List.mem_append, List.mem_filterMap, or_assoc]

theorem descriptions_post {k : Link J} {cmds : List (DriverCmd J)} {json : J}
    (held : json ∈ (k.post cmds).descriptions) :
    json ∈ k.descriptions ∨ ∃ c ∈ cmds, commandDescription k.driver.isHost c = some json := by
  rw [mem_descriptions] at held
  rw [mem_descriptions]
  rcases held with learned | ⟨c, queued, describes⟩ | queued
  · exact .inl (.inl learned)
  · rcases List.mem_append.mp queued with old | new
    · exact .inl (.inr (.inl ⟨c, old, describes⟩))
    · exact .inr ⟨c, new, describes⟩
  · exact .inl (.inr (.inr queued))

theorem descriptions_next {k : Link J} {e : Pc J × TransportEvent J}
    {rest : List (Pc J × TransportEvent J)} (events : k.events = e :: rest) {json : J}
    (held : json ∈ descriptions { k with events := rest }) : json ∈ k.descriptions := by
  rw [mem_descriptions] at held ⊢
  refine held.imp_right (Or.imp_right ?_)
  rintro ⟨e', queued, describes⟩
  exact ⟨e', events ▸ List.mem_cons_of_mem _ queued, describes⟩

/-- A queued message was read from the connection that is still the driver's. -/
theorem driven_message [DecidableEq J] {rtc : Rtc J} {k k' : Link J} {l : DriverLabel J}
    {out : List (DriverOut J)} (driven : Driven rtc k l k' out) {bytes : Wire}
    (read : .data bytes ∈ emissions out) :
    k'.driver = k.driver ∧ l = .read (.dataChannelMessage bytes) := by
  have told := step_emission driven.step
  generalize emissions out = evs at told read
  generalize k'.driver = d' at told ⊢
  cases told with
  | plain silent _ _ _ => exact nomatch silent _ read
  | renewed _ silent _ => exact nomatch silent _ read
  | opens _ => simp at read
  | closes _ => simp at read
  | reads b =>
      have same : bytes = b := by simpa using read
      exact ⟨rfl, same ▸ rfl⟩

/-- A driver step brings no description that was not in flight. -/
theorem driven_descriptions [DecidableEq J] {rtc : Rtc J} {k k' : Link J} {l : DriverLabel J}
    {out : List (DriverOut J)} (driven : Driven rtc k l k' out) {json : J}
    (held : json ∈ k'.descriptions) : json ∈ k.descriptions := by
  rw [mem_descriptions, step_isHost driven.step] at held
  rw [mem_descriptions]
  rcases held with learned | ⟨c, queued, describes⟩ | ⟨e, queued, describes⟩
  · rcases step_descriptions driven.allowed driven.step learned with old | ⟨msg, outcome, here, brought⟩
    · exact .inl old
    · have taken := driven.commands
      rw [here] at taken
      exact .inr (.inl ⟨_, takeCommand_taken taken, brought⟩)
  · exact .inr (.inl ⟨c, takeCommand_subset driven.commands queued, describes⟩)
  · rw [driven.events, List.mem_append, List.mem_map] at queued
    rcases queued with old | ⟨ev, emitted, rfl⟩
    · exact .inr (.inr ⟨e, old, describes⟩)
    · cases ev with
      | data bytes =>
          obtain ⟨same, -⟩ := driven_message driven emitted
          rw [same] at describes
          exact .inl (Driver.mem_descriptions.mpr (.inl describes))
      | _ => cases describes

/-- The peer of every queued message has a known fingerprint. -/
def Named (rtc : Rtc J) (k : Link J) : Prop :=
  ∀ pc bytes, (pc, .data bytes) ∈ k.events → (peerFingerprint rtc pc).isSome = true

theorem Named.driven [DecidableEq J] {rtc : Rtc J} {k k' : Link J} {l : DriverLabel J}
    {out : List (DriverOut J)} (h : Named rtc k) (driven : Driven rtc k l k' out) :
    Named rtc k' := by
  intro pc bytes queued
  rw [driven.events, List.mem_append, List.mem_map] at queued
  rcases queued with old | ⟨ev, emitted, same⟩
  · exact h pc bytes old
  · cases same
    obtain ⟨unchanged, here⟩ := driven_message driven emitted
    have allowed := driven.allowed
    rw [here] at allowed
    rw [unchanged]
    exact allowed.1

theorem Named.post {rtc : Rtc J} {k : Link J} (h : Named rtc k) (cmds : List (DriverCmd J)) :
    Named rtc (k.post cmds) := h

theorem Named.next {rtc : Rtc J} {k : Link J} (h : Named rtc k) {e : Pc J × TransportEvent J}
    {rest : List (Pc J × TransportEvent J)} (events : k.events = e :: rest) :
    Named rtc { k with events := rest } := fun pc bytes queued =>
  h pc bytes (events ▸ List.mem_cons_of_mem _ queued)

/-- Before anything is applied no peer is known. -/
theorem start_descriptions (rtc : Rtc J) (isHost : Bool) (gathered : List String) :
    descriptions (Link.start rtc isHost gathered) = [] ∧ Named rtc (Link.start rtc isHost gathered) := by
  obtain ⟨silent, -⟩ := first_closed rtc isHost gathered
  have noMessage : ∀ pc bytes, (pc, .data bytes) ∉ (Link.start rtc isHost gathered).events := by
    intro pc bytes queued
    obtain ⟨ev, emitted, same⟩ := List.mem_map.mp queued
    cases same
    exact nomatch silent _ emitted
  refine ⟨List.eq_nil_iff_forall_not_mem.mpr fun json held => ?_, fun pc bytes queued =>
    absurd queued (noMessage pc bytes)⟩
  rcases mem_descriptions.mp held with learned | ⟨c, queued, -⟩ | ⟨⟨pc, ev⟩, queued, describes⟩
  · cases isHost <;> exact nomatch learned
  · exact nomatch queued
  · cases ev with
    | data bytes => exact noMessage pc bytes queued
    | _ => cases describes

end Link
end ReachMyDevice
