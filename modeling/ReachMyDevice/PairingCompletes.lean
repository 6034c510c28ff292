import ReachMyDevice.Lib.Streams
import ReachMyDevice.PairingCount
import ReachMyDevice.PairingRun

/-!
# Pairing completes

Every run is a run of the counts: what is on its way is the part of all that is
ever sent that has been put and not yet taken.
-/
namespace ReachMyDevice
open Machines Streams Exchanges

namespace PairingRooms
variable {s : PairingRooms} {c d : PairConnection} {id : Nat}

/-- The only other member of a room. -/
theorem Kept.others_eq (k : s.Kept) (there : s.Belongs ⟨id, d⟩) (same : d.code = c.code)
    (apart : d ≠ c) (only : ∀ m, s.Belongs m → m.tx.code = c.code → m.tx = c ∨ m.tx = d) :
    (s.members c.code).filter (·.tx ≠ c) = [⟨id, d⟩] := by
  refine List.perm_singleton.mp ((List.perm_ext_iff_of_nodup
    ((List.Nodup.of_map _ (k.distinct c.code)).filter _) (List.nodup_singleton _)).mpr fun m => ?_)
  rw [List.mem_filter, List.mem_singleton, decide_eq_true_iff, k.mem]
  constructor
  · rintro ⟨⟨named, belongs⟩, ne⟩
    obtain rfl := (only m belongs named).resolve_left ne
    obtain rfl := Option.some.inj (belongs.1.symm.trans there.1)
    rfl
  · rintro rfl
    exact ⟨⟨same, there⟩, apart⟩

theorem Kept.others_nil (k : s.Kept)
    (only : ∀ m, s.Belongs m → m.tx.code = c.code → m.tx = c) :
    (s.members c.code).filter (·.tx ≠ c) = [] := by
  refine List.filter_eq_nil_iff.mpr fun m member => ?_
  obtain ⟨named, belongs⟩ := (k.mem _ m).mp member
  rw [decide_eq_true_iff, not_not]
  exact only m belongs named

end PairingRooms

/-- What the hub keeps of a side. -/
def PairCount.status (p : PairCount) (id : Nat) : PairStatus where
  asked := p.joined
  memberId := if p.joined then some id else none
  receiving := !p.ended
  sending := !p.stopped
  gone := p.left

namespace PairRun

theorem connection_inj {channel : String} {x y : Side} :
    connection channel x = connection channel y ↔ x = y := by
  constructor
  · intro same
    have index := congrArg PairConnection.channel same
    cases x <;> cases y <;> first | rfl | cases index
  · rintro rfl
    rfl

section
variable {K : Type} {s : PairRun K} {x y : Side} {e : PairEnd K}

theorem setEnd_self : (s.setEnd x e).ends x = e := Function.update_self ..

theorem setEnd_other (ne : y ≠ x) : (s.setEnd x e).ends y = s.ends y := Function.update_of_ne ne ..

end

/-- The texts for one side. -/
def textsFor {K : Type} (channel : String) (x : Side) (sent : List (RoomSend (PairMsg K))) :
    List (RoomText (PairMsg K)) :=
  (sent.filter (·.receiver = connection channel x)).map (·.text)

theorem textsFor_self {K : Type} {channel : String} {x : Side} {text : RoomText (PairMsg K)} :
    textsFor channel x [⟨connection channel x, text⟩] = [text] := by
  simp [textsFor]

theorem textsFor_other {K : Type} {channel : String} {x y : Side} {text : RoomText (PairMsg K)}
    (ne : x ≠ y) : textsFor channel y [⟨connection channel x, text⟩] = [] := by
  rw [textsFor, List.filter_cons_of_neg]
  · rfl
  · rw [decide_eq_true_iff, connection_inj]
    exact ne

theorem textsFor_append {K : Type} {channel : String} {x : Side}
    (sent sent' : List (RoomSend (PairMsg K))) :
    textsFor channel x (sent ++ sent') = textsFor channel x sent ++ textsFor channel x sent' := by
  rw [textsFor, List.filter_append, List.map_append]
  rfl

end PairRun

namespace PairMeeting
variable {K : Type} [LinearOrder K] (deviceIdOf : K → String) (m : PairMeeting K)

def connection (x : Side) : PairConnection := PairRun.connection m.channel x

omit [LinearOrder K] in
theorem connection_inj {x y : Side} : m.connection x = m.connection y ↔ x = y :=
  PairRun.connection_inj

/-- A side with all that is on its way. -/
def endAt (x : Side) (p : PairCount) (put : Nat) : PairEnd K where
  party := m.partyAt deviceIdOf x p.taken
  up := between (m.messages x) p.relayed p.taken
  chan := between (m.incoming x) p.written put
  down := between (m.incoming x) p.taken p.written

/-- A run that has come as far as the counts say. -/
structure At (n : Side → PairCount) (s : PairRun K) : Prop where
  ordered : PairCount.InOrder n
  channel : s.channel = m.channel
  admitted : s.admitted = true
  kept : s.hub.Kept
  status : ∀ x, ∃ id, s.hub.status (m.connection x) = (n x).status id
  only : ∀ c, (s.hub.status c).memberId ≠ none → ∃ x, c = m.connection x
  ends : ∀ x, s.ends x = m.endAt deviceIdOf x (n x) ((n x).put (n x.other))

variable {deviceIdOf m} {n n' : Side → PairCount} {s s' : PairRun K} {x : Side}

theorem at_start : m.At deviceIdOf (fun _ => {}) (m.start true) where
  ordered _ := ⟨Nat.le_refl _, Nat.le_refl _, Nat.zero_le _, Nat.le_refl _, nofun, nofun⟩
  channel := rfl
  admitted := rfl
  kept := PairingRooms.kept_new
  status _ := ⟨0, rfl⟩
  only _ member := absurd rfl member
  ends _ := rfl

/-- A side has joined and not left. -/
theorem At.belongs (a : m.At deviceIdOf n s) (joined : (n x).joined = true)
    (inside : (n x).left = false) : ∃ id, s.hub.Belongs ⟨id, m.connection x⟩ := by
  obtain ⟨id, status⟩ := a.status x
  refine ⟨id, ?_, ?_⟩
  · rw [status, PairCount.status, if_pos joined]
  · rw [status, PairCount.status, inside]

theorem At.sides (a : m.At deviceIdOf n s) {member : RoomMember} (belongs : s.hub.Belongs member) :
    ∃ y, member.tx = m.connection y ∧ (n y).joined = true ∧ (n y).left = false := by
  obtain ⟨y, eq⟩ := a.only member.tx (by rw [belongs.1]; exact nofun)
  obtain ⟨id, status⟩ := a.status y
  obtain ⟨joined, inside⟩ := belongs
  rw [eq, status, PairCount.status] at joined inside
  refine ⟨y, eq, ?_, inside⟩
  by_contra out_
  rw [if_neg out_] at joined
  cases joined

/-- The other member of a side's room. -/
theorem At.others (a : m.At deviceIdOf n s) (joined : (n x.other).joined = true)
    (inside : (n x.other).left = false) : ∃ id,
      (s.hub.members (m.connection x).code).filter (·.tx ≠ m.connection x) =
        [⟨id, m.connection x.other⟩] := by
  obtain ⟨id, there⟩ := a.belongs joined inside
  refine ⟨id, a.kept.others_eq there rfl ?_ fun member belongs _ => ?_⟩
  · exact fun same => x.other_ne (m.connection_inj.mp same)
  · obtain ⟨y, eq, -⟩ := a.sides belongs
    obtain rfl | rfl := x.eq_or_other y
    · exact .inl eq
    · exact .inr eq

theorem At.nobody (a : m.At deviceIdOf n s)
    (away : (n x.other).joined = false ∨ (n x.other).left = true) :
    (s.hub.members (m.connection x).code).filter (·.tx ≠ m.connection x) = [] := by
  refine a.kept.others_nil fun member belongs _ => ?_
  obtain ⟨y, eq, joined, inside⟩ := a.sides belongs
  obtain rfl | rfl := x.eq_or_other y
  · exact eq
  · rw [joined, inside] at away
    cases away with
    | inl none_ => cases none_
    | inr none_ => cases none_

/-- What the hub sends a side is the next of what it has for it. -/
theorem end_post {sent : List (RoomSend (PairMsg K))} {p : PairCount} {before after : Nat}
    (channel : s.channel = m.channel) (at_ : s.ends x = m.endAt deviceIdOf x p before)
    (written : p.written ≤ before) (more : before ≤ after)
    (texts : PairRun.textsFor m.channel x sent = between (m.incoming x) before after) :
    (s.post sent).ends x = m.endAt deviceIdOf x p after := by
  show { s.ends x with chan := (s.ends x).chan ++ PairRun.textsFor s.channel x sent } = _
  rw [at_, channel, texts]
  simp only [endAt, between_append written more]

theorem end_post_nil {sent : List (RoomSend (PairMsg K))} {p : PairCount} {before : Nat}
    (channel : s.channel = m.channel) (at_ : s.ends x = m.endAt deviceIdOf x p before)
    (texts : PairRun.textsFor m.channel x sent = []) :
    (s.post sent).ends x = m.endAt deviceIdOf x p before := by
  show { s.ends x with chan := (s.ends x).chan ++ PairRun.textsFor s.channel x sent } = _
  rw [at_, channel, texts, List.append_nil]

/-- One side of the hub changes. -/
theorem At.statuses (a : m.At deviceIdOf n s) (hub : PairingRooms) {p : PairCount}
    (mine : ∃ id, hub.status (m.connection x) = p.status id)
    (others : ∀ c, c ≠ m.connection x → hub.status c = s.hub.status c) :
    (∀ y, ∃ id, hub.status (m.connection y) = (Function.update n x p y).status id) ∧
      ∀ c, (hub.status c).memberId ≠ none → ∃ y, c = m.connection y := by
  constructor
  · intro y
    by_cases same : y = x
    · rw [same, Function.update_self]
      exact mine
    · rw [Function.update_of_ne same, others _ fun eq => same (m.connection_inj.mp eq)]
      exact a.status y
  · intro c member
    by_cases same : c = m.connection x
    · exact ⟨x, same⟩
    · rw [others c same] at member
      exact a.only c member

/-- A side goes on, where the hub has no part in it. -/
theorem At.own (a : m.At deviceIdOf n s) {p : PairCount} {e : PairEnd K}
    (step : PairCount.Advance n (Function.update n x p)) (status : p.status = (n x).status)
    (mine : p.put (n x.other) = (n x).put (n x.other))
    (theirs : (n x.other).put p = (n x.other).put (n x))
    (eq : e = m.endAt deviceIdOf x p ((n x).put (n x.other))) :
    m.At deviceIdOf (Function.update n x p) (s.setEnd x e) := by
  have statuses := a.statuses (x := x) (p := p) s.hub
    (by rw [status]; exact a.status x) fun _ _ => rfl
  refine ⟨a.ordered.advance step, a.channel, a.admitted, a.kept, statuses.1, a.only, fun y => ?_⟩
  show Function.update s.ends x e y = _
  by_cases same : y = x
  · rw [same, Function.update_self, Function.update_self, Function.update_of_ne x.other_ne, mine, eq]
  · obtain rfl := (x.eq_or_other y).resolve_left same
    rw [Function.update_of_ne same, Function.update_of_ne same, Side.other_other,
      Function.update_self, theirs, a.ends, Side.other_other]

omit [LinearOrder K] in
theorem finished_partyAt (k : Nat) : (m.partyAt deviceIdOf x k).finished = decide (3 ≤ k) := by
  match k with
  | 0 => rfl
  | 1 => rfl
  | 2 => rfl
  | k + 3 => exact (decide_eq_true (Nat.le_add_left 3 k)).symm

theorem At.take (a : m.At deviceIdOf n s) (distinct : (m.caller .a).key ≠ (m.caller .b).key)
    (stepped : s.step deviceIdOf (.take x) = some s') :
    ∃ n', PairCount.Advance n n' ∧ m.At deviceIdOf n' s' := by
  simp only [PairRun.step] at stepped
  split at stepped
  · rename_i text rest down
    obtain ⟨going, eq⟩ := Option.ite_none_left_eq_some.mp stepped
    rw [a.ends] at down going
    obtain ⟨less, next, rfl⟩ := between_cons down
    rw [endAt, finished_partyAt, decide_eq_true_iff, Nat.not_le] at going
    have mine := a.ordered x
    have step := PairCount.Advance.take x less going
    refine ⟨_, step, ?_⟩
    rw [← Option.some.inj eq]
    refine a.own step rfl rfl rfl ?_
    rw [a.ends]
    simp only [endAt, PairCount.takes, m.receive_partyAt deviceIdOf x distinct going next,
      between_put (Nat.le_trans mine.relayed (Nat.min_le_right ..))]
  · cases stepped

theorem At.write (a : m.At deviceIdOf n s) (stepped : s.step deviceIdOf (.write x) = some s') :
    ∃ n', PairCount.Advance n n' ∧ m.At deviceIdOf n' s' := by
  simp only [PairRun.step] at stepped
  split at stepped
  · rename_i text rest chan
    obtain ⟨-, eq⟩ := Option.ite_none_right_eq_some.mp stepped
    rw [a.ends] at chan
    obtain ⟨less, next, rfl⟩ := between_cons chan
    have mine := a.ordered x
    have step := PairCount.Advance.write x less
    refine ⟨_, step, ?_⟩
    rw [← Option.some.inj eq]
    refine a.own step rfl rfl rfl ?_
    rw [a.ends]
    simp only [endAt, PairCount.writes, between_put mine.taken, next, Option.toList_some]
  · cases stepped

omit [LinearOrder K] in
theorem hubStep_cases {l : RoomLabel (PairMsg K)} (stepped : s.hubStep l = some s') :
    ∃ hub sent, s.hub.step l = some (hub, sent) ∧ s' = { s.post sent with hub := hub } := by
  obtain ⟨⟨hub, sent⟩, taken, rfl⟩ := Option.map_eq_some_iff.mp stepped
  exact ⟨hub, sent, taken, rfl⟩

/-- Both sides are in the room until both have said all. -/
theorem At.together (a : m.At deviceIdOf n s) (said : (n x).relayed < (n x).taken)
    (more : (n x).relayed < 2) : (n x).left = false ∧ (n x.other).left = false ∧
      (n x).joined = true ∧ (n x.other).joined = true := by
  obtain ⟨mine, theirs⟩ := a.ordered.both x
  have written := mine.taken
  obtain ⟨joined, joined'⟩ := a.ordered.joined (x := x) (by omega)
  refine ⟨?_, ?_, joined, joined'⟩
  · rw [← Bool.not_eq_true]
    intro left
    have all := mine.gone (.inr (.inr left))
    omega
  · rw [← Bool.not_eq_true]
    intro left
    have all := a.ordered.said (theirs.gone (.inr (.inr left))).1
    rw [Side.other_other] at all
    omega

omit [LinearOrder K] in
theorem textsFor_pair {text : RoomText (PairMsg K)} :
    PairRun.textsFor m.channel x.other [⟨m.connection x.other, text⟩] = [text] ∧
      PairRun.textsFor m.channel x [⟨m.connection x.other, text⟩] = [] :=
  ⟨PairRun.textsFor_self, PairRun.textsFor_other x.other_ne⟩

theorem incoming_message {k : Nat} {msg : PairMsg K} (h : (m.messages x)[k]? = some msg) :
    (m.incoming x.other)[1 + k]? = some (.payload msg) := by
  have inside := (List.getElem?_eq_some_iff.mp h).1
  rw [incoming, Side.other_other, Nat.add_comm, List.cons_append, List.getElem?_cons_succ,
    List.getElem?_append_left (by rw [List.length_map]; exact inside), List.getElem?_map, h]
  rfl

/-- A message goes to the other side, and to it alone. -/
theorem At.received (a : m.At deviceIdOf n s) (joined : (n x).joined = true)
    (here : (n x).left = false) (joined' : (n x.other).joined = true)
    (inside : (n x.other).left = false) {msg : PairMsg K} {hub : PairingRooms}
    {sent : List (RoomSend (PairMsg K))}
    (received : s.hub.step (.receive (PairRun.connection s.channel x) (some msg)) =
      some (hub, sent)) :
    hub = s.hub ∧ sent = [⟨m.connection x.other, .payload msg⟩] := by
  rw [a.channel] at received
  cases a.kept.step_cases received with
  | received _ id member _ =>
      obtain ⟨id', belongs⟩ := a.belongs joined here
      obtain ⟨id'', others⟩ := a.others joined' inside
      obtain rfl := Option.some.inj (belongs.1.symm.trans member)
      refine ⟨rfl, ?_⟩
      show ((s.hub.members (m.connection x).code).filter (·.id ≠ id')).map _ = _
      rw [a.kept.others belongs, others]
      rfl

theorem At.relay (a : m.At deviceIdOf n s) (stepped : s.step deviceIdOf (.relay x) = some s') :
    ∃ n', PairCount.Advance n n' ∧ m.At deviceIdOf n' s' := by
  simp only [PairRun.step] at stepped
  split at stepped
  · rename_i msg rest up
    rw [a.ends] at up
    obtain ⟨less, next, rfl⟩ := between_cons up
    have more := (List.getElem?_eq_some_iff.mp next).1
    have step := PairCount.Advance.relay (n := n) x (Nat.lt_min.mpr ⟨more, less⟩)
    refine ⟨_, step, ?_⟩
    obtain ⟨hub, sent, received, rfl⟩ := hubStep_cases stepped
    obtain ⟨here, inside, joined, joined'⟩ := a.together less more
    obtain ⟨rfl, rfl⟩ := a.received joined here joined' inside received
    have told := (a.ordered.both x).2.untold here
    have statuses := a.statuses (x := x) (p := (n x).relays)
      s.hub (a.status x) fun _ _ => rfl
    refine ⟨a.ordered.advance step, a.channel, a.admitted, a.kept, statuses.1, a.only, x.both ?_ ?_⟩
    · rw [Function.update_self, Function.update_of_ne x.other_ne]
      refine end_post_nil a.channel ?_ textsFor_pair.2
      rw [PairRun.setEnd_self, a.ends]
      rfl
    · have before : (n x.other).put (n x) = 1 + (n x).relayed := by
        rw [PairCount.put_joined joined' joined, told]
        rfl
      have after : (n x.other).put (n x).relays =
          1 + (n x).relayed + 1 := by
        rw [PairCount.put_joined joined' (show (n x).relays.joined = true from joined), told]
        rfl
      rw [Function.update_of_ne x.other_ne, Side.other_other, Function.update_self, after]
      refine end_post a.channel ?_ (before ▸ (a.ordered.both x).2.written) (Nat.le_succ _) ?_
      · rw [PairRun.setEnd_other x.other_ne, a.ends, Side.other_other, before]
      · rw [textsFor_pair.1, between_succ, incoming_message next]
        rfl
  · cases stepped

/-- A task of a side ends: nothing is sent, and only the side's status changes. -/
theorem At.quiet (a : m.At deviceIdOf n s) {p : PairCount} {hub : PairingRooms}
    (step : PairCount.Advance n (Function.update n x p)) (kept : hub.Kept)
    (mine : ∃ id, hub.status (m.connection x) = p.status id)
    (others : ∀ c, c ≠ m.connection x → hub.status c = s.hub.status c)
    (same : ∀ k, m.endAt deviceIdOf x p k = m.endAt deviceIdOf x (n x) k)
    (put : p.put (n x.other) = (n x).put (n x.other))
    (put' : (n x.other).put p = (n x.other).put (n x)) :
    m.At deviceIdOf (Function.update n x p) { s.post [] with hub := hub } := by
  have statuses := a.statuses hub mine others
  refine ⟨a.ordered.advance step, a.channel, a.admitted, kept, statuses.1, statuses.2, x.both ?_ ?_⟩
  · rw [Function.update_self, Function.update_of_ne x.other_ne, put]
    exact end_post_nil a.channel ((a.ends x).trans (same _).symm) rfl
  · rw [Function.update_of_ne x.other_ne, Side.other_other, Function.update_self, put']
    refine end_post_nil a.channel ?_ rfl
    rw [a.ends, Side.other_other]

theorem At.writeFails (a : m.At deviceIdOf n s)
    (stepped : s.step deviceIdOf (.writeFails x) = some s') :
    ∃ n', PairCount.Advance n n' ∧ m.At deviceIdOf n' s' := by
  obtain ⟨⟨some_, finished⟩, stepped⟩ := Option.ite_none_right_eq_some.mp stepped
  obtain ⟨hub, sent, ends, rfl⟩ := hubStep_cases stepped
  rw [a.channel] at ends
  have kept := a.kept.step (a.kept.step_cases ends)
  obtain ⟨⟨-, sending⟩, eq⟩ := Option.ite_none_right_eq_some.mp ends
  cases eq
  obtain ⟨id, status⟩ := a.status x
  rw [a.ends, endAt, finished_partyAt, decide_eq_true_iff] at finished
  have mine := a.ordered x
  have taken := mine.taken
  have less : (n x).written < (n x).put (n x.other) := by
    rw [← Nat.not_le]
    intro none_
    rw [a.ends, endAt, between_nil none_] at some_
    exact some_ rfl
  have open_ : (n x).stopped = false := by
    rw [← Bool.not_eq_true']
    exact (congrArg PairStatus.sending status).symm.trans sending
  have done : (n x).taken = 3 ∧ (n x).relayed = 2 :=
    ⟨Nat.le_antisymm mine.three finished, a.ordered.last (by omega)⟩
  refine ⟨_, .stop x open_ done, a.quiet (.stop x open_ done) kept ⟨id, ?_⟩ ?_ ?_ rfl rfl⟩
  · exact (PairingRooms.status_setStatus_self ..).trans
      (congrArg (fun old : PairStatus => { old with sending := false }) status)
  · exact fun c ne => PairingRooms.status_setStatus_other ne _
  · exact fun _ => rfl

theorem At.close (a : m.At deviceIdOf n s) (stepped : s.step deviceIdOf (.close x) = some s') :
    ∃ n', PairCount.Advance n n' ∧ m.At deviceIdOf n' s' := by
  obtain ⟨over_, stepped⟩ := Option.ite_none_right_eq_some.mp stepped
  obtain ⟨hub, sent, ends, rfl⟩ := hubStep_cases stepped
  rw [a.channel] at ends over_
  have kept := a.kept.step (a.kept.step_cases ends)
  obtain ⟨⟨-, receiving⟩, eq⟩ := Option.ite_none_right_eq_some.mp ends
  cases eq
  obtain ⟨id, status⟩ := a.status x
  have mine := a.ordered x
  have open_ : (n x).ended = false := by
    rw [← Bool.not_eq_true']
    exact (congrArg PairStatus.receiving status).symm.trans receiving
  have done : (n x).taken = 3 ∧ (n x).relayed = 2 := by
    cases over_ with
    | inl said =>
        obtain ⟨finished, nothing⟩ := said
        rw [a.ends, endAt, finished_partyAt, decide_eq_true_iff] at finished
        rw [a.ends, endAt] at nothing
        have relayed := mine.relayed
        refine ⟨Nat.le_antisymm mine.three finished, ?_⟩
        by_contra more
        have all := length_le_of_between_nil (by omega) nothing
        have two : (m.messages x).length = 2 := rfl
        omega
    | inr stopped =>
        refine mine.gone (.inr (.inl ?_))
        rw [← Bool.not_eq_false']
        exact (congrArg PairStatus.sending status).symm.trans stopped
  refine ⟨_, .endReceiving x open_ done,
    a.quiet (.endReceiving x open_ done) kept ⟨id, ?_⟩ ?_ ?_ rfl rfl⟩
  · exact (PairingRooms.status_setStatus_self ..).trans
      (congrArg (fun old : PairStatus => { old with receiving := false }) status)
  · exact fun c ne => PairingRooms.status_setStatus_other ne _
  · exact fun _ => rfl

theorem At.members_out (a : m.At deviceIdOf n s) (out_ : (n x).joined = false) :
    s.hub.members (m.connection x).code =
      (s.hub.members (m.connection x).code).filter (·.tx ≠ m.connection x) := by
  refine (List.filter_eq_self.mpr fun member listed => ?_).symm
  rw [decide_eq_true_iff]
  intro eq
  obtain ⟨y, eq', joined, -⟩ := a.sides ((a.kept.mem _ member).mp listed).2
  obtain rfl := m.connection_inj.mp (eq'.symm.trans eq)
  rw [joined] at out_
  cases out_

/-- A side finds the room empty, or with the other side, which is told as well. -/
theorem At.joined_sent (a : m.At deviceIdOf n s) (out_ : (n x).joined = false) {hub : PairingRooms}
    {sent : List (RoomSend (PairMsg K))}
    (joins : s.hub.step (.join (m.connection x)) = some (hub, sent)) :
    hub = s.hub.entered (m.connection x) ∧
      ((n x.other).joined = false ∧ sent = [] ∨ (n x.other).joined = true ∧
        sent = [⟨m.connection x.other, .joined⟩, ⟨m.connection x, .joined⟩]) := by
  have members := a.members_out out_
  cases there : (n x.other).joined with
  | false =>
      rw [a.nobody (.inl there)] at members
      cases a.kept.step_cases joins with
      | full _ unasked none_ =>
          rw [members] at none_
          cases none_
      | entered _ unasked room =>
          rw [members]
          exact ⟨rfl, .inl ⟨rfl, rfl⟩⟩
  | true =>
      have inside := ((a.ordered.both x).2.idle (PairCount.put_out out_).2).2.2
      obtain ⟨id, others⟩ := a.others there inside
      rw [others] at members
      cases a.kept.step_cases joins with
      | full _ unasked none_ =>
          rw [members] at none_
          exact absurd none_ (Nat.not_succ_le_self 1)
      | entered _ unasked room =>
          rw [members]
          exact ⟨rfl, .inr ⟨rfl, rfl⟩⟩

omit [LinearOrder K] in
theorem textsFor_both {text : RoomText (PairMsg K)} : ∀ y,
    PairRun.textsFor m.channel y [⟨m.connection x.other, text⟩, ⟨m.connection x, text⟩] = [text] := by
  have split_ : ∀ y, PairRun.textsFor m.channel y
      [⟨m.connection x.other, text⟩, ⟨m.connection x, text⟩] =
        PairRun.textsFor m.channel y [⟨m.connection x.other, text⟩] ++
          PairRun.textsFor m.channel y [⟨m.connection x, text⟩] :=
    fun y => PairRun.textsFor_append [_] [_]
  refine x.both ?_ ?_
  · rw [split_, textsFor_pair.2]
    exact PairRun.textsFor_self
  · rw [split_, textsFor_pair.1]
    exact congrArg (text :: ·) (PairRun.textsFor_other x.other_ne.symm)

theorem At.unjoined (a : m.At deviceIdOf n s) {hub : PairingRooms}
    {sent : List (RoomSend (PairMsg K))}
    (joins : s.hub.step (.join (m.connection x)) = some (hub, sent)) : (n x).joined = false := by
  obtain ⟨id, status⟩ := a.status x
  cases a.kept.step_cases joins with
  | full _ unasked none_ => exact (congrArg PairStatus.asked status).symm.trans unasked
  | entered _ unasked room => exact (congrArg PairStatus.asked status).symm.trans unasked

theorem At.join (a : m.At deviceIdOf n s) (stepped : s.step deviceIdOf (.join x) = some s') :
    ∃ n', PairCount.Advance n n' ∧ m.At deviceIdOf n' s' := by
  simp only [PairRun.step, a.admitted, if_true] at stepped
  obtain ⟨hub, sent, joins, rfl⟩ := hubStep_cases stepped
  rw [a.channel] at joins
  have out_ := a.unjoined joins
  have kept := a.kept.step (a.kept.step_cases joins)
  obtain ⟨rfl, sent_⟩ := a.joined_sent out_ joins
  have step := PairCount.Advance.join x out_
  obtain ⟨id, status⟩ := a.status x
  have statuses := a.statuses (x := x) (p := (n x).joins)
    (s.hub.entered (m.connection x))
    ⟨s.hub.nextMember, (Function.update_self ..).trans (congrArg (fun old : PairStatus =>
      { old with asked := true, memberId := some s.hub.nextMember }) status)⟩
    fun c ne => Function.update_of_ne ne ..
  obtain ⟨nothing, nothing'⟩ : (n x).put (n x.other) = 0 ∧ (n x.other).put (n x) = 0 :=
    PairCount.put_out out_
  obtain ⟨mine, theirs⟩ := a.ordered.both x
  obtain ⟨written, relayed, here⟩ := mine.idle nothing
  obtain ⟨written', relayed', inside⟩ := theirs.idle nothing'
  have told := mine.untold inside
  have told' := theirs.untold here
  have at_ : s.ends x = m.endAt deviceIdOf x (n x).joins 0 := by
    rw [a.ends, nothing]
    rfl
  have at' : s.ends x.other = m.endAt deviceIdOf x.other (n x.other) 0 := by
    rw [a.ends, Side.other_other, nothing']
  refine ⟨_, step, a.ordered.advance step, a.channel, a.admitted, kept, statuses.1, statuses.2,
    x.both ?_ ?_⟩
  · rw [Function.update_self, Function.update_of_ne x.other_ne]
    obtain ⟨alone, rfl⟩ | ⟨met, rfl⟩ := sent_
    · rw [(PairCount.put_out alone).2]
      exact end_post_nil a.channel at_ rfl
    · have one : (n x).joins.put (n x.other) = 1 := by
        rw [PairCount.put_joined rfl met, relayed', show (n x).joins.told = _ from told]
        rfl
      rw [one]
      exact end_post a.channel at_ (Nat.le_of_eq written) (Nat.zero_le 1) (textsFor_both x)
  · rw [Function.update_of_ne x.other_ne, Side.other_other, Function.update_self]
    obtain ⟨alone, rfl⟩ | ⟨met, rfl⟩ := sent_
    · rw [(PairCount.put_out alone).1]
      exact end_post_nil a.channel at' rfl
    · have one : (n x.other).put (n x).joins = 1 := by
        rw [PairCount.put_joined met rfl, show (n x).joins.relayed = _ from relayed, told']
        rfl
      rw [one]
      exact end_post a.channel at' (Nat.le_of_eq written') (Nat.zero_le 1) (textsFor_both x.other)

theorem leave_guard {J : Type} {hub : PairingRooms} {c : PairConnection}
    {out : PairingRooms × List (RoomSend J)} (leaves : hub.step (.leave c) = some out) :
    (hub.status c).gone = false ∧
      ((hub.status c).receiving = false ∨ (hub.status c).sending = false) := by
  simp only [PairingRooms.step] at leaves
  split at leaves
  · obtain ⟨guard, -⟩ := Option.ite_none_left_eq_some.mp leaves
    obtain ⟨here, over_⟩ := not_or.mp guard
    exact ⟨Bool.not_eq_true _ ▸ here,
      (not_and_or.mp over_).imp (Bool.not_eq_true _ ▸ ·) (Bool.not_eq_true _ ▸ ·)⟩
  · cases leaves

/-- The other side is told, if it is still there. -/
theorem At.left_sent (a : m.At deviceIdOf n s) (joined' : (n x.other).joined = true)
    {hub : PairingRooms} {sent : List (RoomSend (PairMsg K))}
    (leaves : s.hub.step (.leave (m.connection x)) = some (hub, sent)) :
    (∃ id, hub = s.hub.departed (m.connection x) id) ∧
      sent = if (n x.other).left then [] else [⟨m.connection x.other, .left⟩] := by
  cases a.kept.step_cases leaves with
  | departed _ id belongs =>
      refine ⟨⟨id, rfl⟩, ?_⟩
      rw [a.kept.others belongs]
      cases inside : (n x.other).left with
      | false =>
          obtain ⟨id', others⟩ := a.others joined' inside
          rw [others]
          rfl
      | true =>
          rw [a.nobody (.inr inside)]
          rfl

theorem At.leave (a : m.At deviceIdOf n s) (stepped : s.step deviceIdOf (.leave x) = some s') :
    ∃ n', PairCount.Advance n n' ∧ m.At deviceIdOf n' s' := by
  obtain ⟨hub, sent, leaves, rfl⟩ := hubStep_cases stepped
  rw [a.channel] at leaves
  obtain ⟨here, over_⟩ := leave_guard leaves
  have kept := a.kept.step (a.kept.step_cases leaves)
  obtain ⟨id, status⟩ := a.status x
  have here : (n x).left = false := (congrArg PairStatus.gone status).symm.trans here
  have over_ : (n x).ended ∨ (n x).stopped := by
    refine over_.imp (fun ended => ?_) (fun stopped => ?_)
    · rw [← Bool.not_eq_false']
      exact (congrArg PairStatus.receiving status).symm.trans ended
    · rw [← Bool.not_eq_false']
      exact (congrArg PairStatus.sending status).symm.trans stopped
  obtain ⟨mine, theirs⟩ := a.ordered.both x
  obtain ⟨all, said⟩ := mine.gone (over_.imp_right .inl)
  have taken := mine.taken
  obtain ⟨joined, joined'⟩ := a.ordered.joined (x := x) (by omega)
  obtain ⟨⟨id', rfl⟩, rfl⟩ := a.left_sent joined' leaves
  have step := PairCount.Advance.leave x here over_
  have untold := theirs.untold here
  have statuses := a.statuses (x := x) (p := (n x).leaves)
    (s.hub.departed (m.connection x) id')
    ⟨id, (Function.update_self ..).trans
      (congrArg (fun old : PairStatus => { old with gone := true }) status)⟩
    fun c ne => Function.update_of_ne ne ..
  refine ⟨_, step, a.ordered.advance step, a.channel, a.admitted, kept, x.both ?_ ?_, statuses.2,
    x.both ?_ ?_⟩
  · have mine := statuses.1 x
    rw [Function.update_self] at mine
    rw [Function.update_of_ne x.other_ne.symm, Function.update_self]
    exact mine
  · have theirs := statuses.1 x.other
    rw [Function.update_of_ne x.other_ne] at theirs
    rw [Function.update_self]
    exact theirs
  · rw [Function.update_of_ne x.other_ne.symm, Function.update_self, Function.update_self]
    refine end_post_nil a.channel (a.ends x) ?_
    split
    · rfl
    · exact textsFor_pair.2
  · rw [Side.other_other, Function.update_of_ne x.other_ne.symm, Function.update_self,
      Function.update_self]
    have before : (n x.other).put (n x) = 3 := by
      rw [PairCount.put_joined joined' joined, untold, said]
      rfl
    have at_ : s.ends x.other = m.endAt deviceIdOf x.other (n x.other).hears 3 := by
      rw [a.ends, Side.other_other, before]
      rfl
    have after : (n x.other).hears.put (n x).leaves = 3 + (!(n x.other).left).toNat := by
      rw [PairCount.put_joined (show (n x.other).hears.joined = true from joined')
        (show (n x).leaves.joined = true from joined), show (n x).leaves.relayed = _ from said]
      rfl
    rw [after]
    cases inside : (n x.other).left with
    | false =>
        exact end_post a.channel at_ (before ▸ theirs.written) (Nat.le_succ 3) textsFor_pair.1
    | true => exact end_post_nil a.channel at_ rfl

/-- Every step of a run is one of the counts. -/
theorem At.step (a : m.At deviceIdOf n s) (distinct : (m.caller .a).key ≠ (m.caller .b).key)
    {l : PairRunLabel} (stepped : s.step deviceIdOf l = some s') :
    ∃ n', PairCount.Advance n n' ∧ m.At deviceIdOf n' s' := by
  cases l with
  | join x => exact a.join stepped
  | relay x => exact a.relay stepped
  | write x => exact a.write stepped
  | writeFails x => exact a.writeFails stepped
  | take x => exact a.take distinct stepped
  | close x => exact a.close stepped
  | leave x => exact a.leave stepped

/-! ## No run is stuck before both are done -/

theorem At.can_join (a : m.At deviceIdOf n s) (out_ : (n x).joined = false) :
    ∃ s', s.step deviceIdOf (.join x) = some s' := by
  obtain ⟨id, status⟩ := a.status x
  have unasked : (s.hub.status (m.connection x)).asked = false := by
    rw [status]
    exact out_
  have steps : ∃ out : PairingRooms × List (RoomSend (PairMsg K)),
      s.hub.step (.join (m.connection x)) = some out := by
    simp only [PairingRooms.step, unasked, Bool.false_eq_true, if_false]
    split
    · exact ⟨_, rfl⟩
    · exact ⟨_, rfl⟩
  obtain ⟨out, joins⟩ := steps
  refine ⟨{ s.post out.2 with hub := out.1 }, ?_⟩
  simp only [PairRun.step, a.admitted, if_true]
  show (s.hub.step (.join (PairRun.connection s.channel x))).map _ = _
  rw [a.channel]
  exact congrArg (Option.map _) joins

theorem At.can_take (a : m.At deviceIdOf n s) (going : (n x).taken < 3)
    (there : (n x).taken < (n x).written) : ∃ s', s.step deviceIdOf (.take x) = some s' := by
  have eq := a.ends x
  cases down : (s.ends x).down with
  | nil =>
      rw [eq, endAt] at down
      have short : (m.incoming x).length = 4 := rfl
      have bound := length_le_of_between_nil there down
      omega
  | cons text rest =>
      have playing : (s.ends x).party.finished = false := by
        rw [eq, endAt, finished_partyAt, decide_eq_false_iff_not]
        omega
      simp only [PairRun.step, down, playing]
      exact ⟨_, rfl⟩

theorem At.can_write (a : m.At deviceIdOf n s) (going : (n x).taken < 3)
    (there : (n x).written < (n x).put (n x.other)) :
    ∃ s', s.step deviceIdOf (.write x) = some s' := by
  obtain ⟨mine, theirs⟩ := a.ordered.both x
  cases chan : (s.ends x).chan with
  | nil =>
      rw [a.ends, endAt] at chan
      have short : (m.incoming x).length = 4 := rfl
      have bound := length_le_of_between_nil there chan
      have most : (n x).put (n x.other) ≤ 4 :=
        PairCount.put_le (Nat.le_trans theirs.relayed (Nat.min_le_left ..))
      omega
  | cons text rest =>
      obtain ⟨id, status⟩ := a.status x
      have sending : (s.hub.status (PairRun.connection s.channel x)).sending = true := by
        rw [a.channel]
        refine (congrArg PairStatus.sending status).trans ?_
        rw [PairCount.status, Bool.not_eq_true', ← Bool.not_eq_true]
        intro stopped
        have all := mine.gone (.inr (.inl stopped))
        omega
      simp only [PairRun.step, chan, sending]
      exact ⟨_, rfl⟩

theorem At.can_relay (a : m.At deviceIdOf n s) (there : (n x).relayed < min 2 (n x).taken) :
    ∃ s', s.step deviceIdOf (.relay x) = some s' := by
  have mine := a.ordered x
  have taken := mine.taken
  cases up : (s.ends x).up with
  | nil =>
      rw [a.ends, endAt] at up
      have short : (m.messages x).length = 2 := rfl
      have bound := length_le_of_between_nil (by omega) up
      omega
  | cons msg rest =>
      obtain ⟨joined, -⟩ := a.ordered.joined (x := x) (by omega)
      obtain ⟨id, status⟩ := a.status x
      have member : (s.hub.status (PairRun.connection s.channel x)).memberId = some id := by
        rw [a.channel]
        refine (congrArg PairStatus.memberId status).trans ?_
        rw [PairCount.status, if_pos joined]
      have receiving : (s.hub.status (PairRun.connection s.channel x)).receiving = true := by
        rw [a.channel]
        refine (congrArg PairStatus.receiving status).trans ?_
        rw [PairCount.status, Bool.not_eq_true', ← Bool.not_eq_true]
        intro ended
        have all := mine.gone (.inl ended)
        omega
      have received : s.hub.step (.receive (PairRun.connection s.channel x) (some msg)) =
          some (s.hub, s.hub.relayRoom (PairRun.connection s.channel x).code id msg) := by
        simp only [PairingRooms.step, member, receiving, if_true]
      simp only [PairRun.step, up]
      exact ⟨_, congrArg (Option.map _) received⟩

/-- A run goes on until both parties are done. -/
theorem At.goes_on (a : m.At deviceIdOf n s) (going : (s.ends x).party.finished = false) :
    ∃ l s', s.step deviceIdOf l = some s' := by
  rw [a.ends, endAt, finished_partyAt, decide_eq_false_iff_not, Nat.not_le] at going
  by_cases joined : ∀ y, (n y).joined = true
  · obtain ⟨y, ⟨going, there | there⟩ | there⟩ := a.ordered.goes_on joined going
    · exact ⟨_, a.can_take going there⟩
    · exact ⟨_, a.can_write going there⟩
    · exact ⟨_, a.can_relay there⟩
  · obtain ⟨y, out_⟩ := not_forall.mp joined
    exact ⟨_, a.can_join (Bool.not_eq_true _ ▸ out_)⟩

/-- A party that is done has the verdict. -/
theorem At.verdict (a : m.At deviceIdOf n s) {result : Except PairError (PairedPeer K)}
    (done : (s.ends x).party.phase = .done result) : result = m.verdict deviceIdOf x := by
  rw [a.ends, endAt] at done
  dsimp only at done
  generalize (n x).taken = k at done
  match k, done with
  | 0, done => cases done
  | 1, done => cases done
  | 2, done => cases done
  | k + 3, done => exact (PairPhase.done.inj done).symm

end PairMeeting

/-! ## Where the request is refused -/

/-- Nobody joins; a side has not tried yet, or has failed. -/
structure PairMeeting.Shut {K : Type} [LinearOrder K] (m : PairMeeting K) (s : PairRun K) :
    Prop where
  admitted : s.admitted = false
  hub : s.hub = .new
  ends : ∀ x, s.ends x = { party := m.initial x } ∨
    s.ends x = { party := ((m.initial x).fails .connect).1 }

/-- How many sides have not tried yet. -/
def PairRun.untried {K : Type} (s : PairRun K) : Nat :=
  (!(s.ends .a).party.finished).toNat + (!(s.ends .b).party.finished).toNat

namespace PairMeeting.Shut
variable {K : Type} [LinearOrder K] {deviceIdOf : K → String} {m : PairMeeting K} {s s' : PairRun K}
  {x : Side}

theorem start : m.Shut (m.start false) := ⟨rfl, rfl, fun _ => .inl rfl⟩

/-- Nothing is on its way. -/
theorem silent (h : m.Shut s) (x : Side) :
    (s.ends x).up = [] ∧ (s.ends x).chan = [] ∧ (s.ends x).down = [] := by
  obtain same | same := h.ends x <;> rw [same] <;> exact ⟨rfl, rfl, rfl⟩

/-- The hub has no task of a socket. -/
theorem hubStep (h : m.Shut s) {l : RoomLabel (PairMsg K)} (other : ∀ c, l ≠ .join c) :
    s.hubStep l = none := by
  rw [PairRun.hubStep, h.hub]
  cases l with
  | join c => exact absurd rfl (other c)
  | _ => rfl

variable (deviceIdOf) in
theorem join (h : m.Shut s) (untried : s.ends x = { party := m.initial x }) :
    s.step deviceIdOf (.join x) =
      some (s.setEnd x { party := ((m.initial x).fails .connect).1 }) := by
  simp [PairRun.step, h.admitted, untried, PairParty.finished, initial, PairCaller.party]

theorem step (h : m.Shut s) {l : PairRunLabel} (stepped : s.step deviceIdOf l = some s') :
    m.Shut s' ∧ s'.untried < s.untried := by
  have silent := h.silent
  cases l with
  | join x =>
      obtain untried | failed := h.ends x
      · rw [h.join deviceIdOf untried] at stepped
        cases stepped
        refine ⟨⟨h.admitted, h.hub, fun y => ?_⟩, ?_⟩
        · by_cases same : y = x
          · subst same
            exact .inr PairRun.setEnd_self
          · rw [PairRun.setEnd_other same]
            exact h.ends y
        · cases x <;> simp [PairRun.untried, PairRun.setEnd, untried, initial, PairCaller.party,
            PairParty.fails, PairParty.finished]
      · simp [PairRun.step, h.admitted, failed, PairParty.fails, PairParty.finished] at stepped
  | relay x => simp [PairRun.step, (silent x).1] at stepped
  | write x => simp [PairRun.step, (silent x).2.1] at stepped
  | take x => simp [PairRun.step, (silent x).2.2] at stepped
  | writeFails x => simp [PairRun.step, (silent x).2.1] at stepped
  | close x => simp [PairRun.step, h.hubStep] at stepped
  | leave x => simp [PairRun.step, h.hubStep] at stepped

theorem result (h : m.Shut s) {result : Except PairError (PairedPeer K)}
    (done : (s.ends x).party.phase = .done result) : result = .error .connect := by
  obtain untried | failed := h.ends x
  · rw [untried] at done
    cases done
  · rw [failed] at done
    exact (PairPhase.done.inj done).symm

end PairMeeting.Shut

/-! ## Runs -/

namespace PairRun
variable {K : Type} [LinearOrder K] {carried : String → Option String} {deviceIdOf : K → String}
  {caller : Side → PairCaller K}

/-- A run of the machine is a run of some meeting of the callers, or no request is upgraded. -/
inductive Follows (carried : String → Option String) (deviceIdOf : K → String)
    (caller : Side → PairCaller K) (s : PairRun K) : Nat → Prop
  | meets {m : PairMeeting K} {n : Side → PairCount} {channel : String} (own : m.caller = caller)
      (codes : ∀ x, splitCode (caller x).code = some (channel, m.secret x))
      (named : room carried channel = some m.channel) (at_ : PairMeeting.At deviceIdOf m n s) :
      Follows carried deviceIdOf caller s (PairCount.rest n)
  | shut {m : PairMeeting K} {channel : String} (own : m.caller = caller)
      (codes : ∀ x, splitCode (caller x).code = some (channel, m.secret x))
      (nameless : room carried channel = none) (shut : m.Shut s) :
      Follows carried deviceIdOf caller s s.untried

theorem follows_init {s : PairRun K} (first : (machine carried deviceIdOf caller).init s) :
    ∃ k, Follows carried deviceIdOf caller s k := by
  obtain ⟨channel, secret, codes, rfl⟩ := first
  cases named : room carried channel with
  | none => exact ⟨_, .shut (m := ⟨channel, secret, caller⟩) rfl codes named .start⟩
  | some code =>
      exact ⟨_, .meets (m := ⟨code, secret, caller⟩) rfl codes named PairMeeting.at_start⟩

theorem Follows.step (distinct : (caller .a).key ≠ (caller .b).key) {s s' : PairRun K} {k : Nat}
    {l : PairRunLabel} (h : Follows carried deviceIdOf caller s k)
    (stepped : s.step deviceIdOf l = some s') :
    ∃ k' < k, Follows carried deviceIdOf caller s' k' := by
  cases h with
  | meets own codes named a =>
      obtain ⟨n', advance, a'⟩ := a.step (own ▸ distinct) stepped
      exact ⟨_, a.ordered.rest_less advance, .meets own codes named a'⟩
  | shut own codes nameless shut =>
      obtain ⟨shut', less⟩ := shut.step stepped
      exact ⟨_, less, .shut own codes nameless shut'⟩

theorem follows_of_reachable (distinct : (caller .a).key ≠ (caller .b).key) {s : PairRun K}
    (run : (machine carried deviceIdOf caller).Reachable s) :
    ∃ k, Follows carried deviceIdOf caller s k := by
  refine run.invariant (I := fun s => ∃ k, Follows carried deviceIdOf caller s k) ?_ ?_
  · exact fun s first => follows_init first
  · rintro s l s' ⟨k, follows⟩ stepped
    obtain ⟨k', -, follows'⟩ := follows.step distinct stepped
    exact ⟨k', follows'⟩

theorem Follows.goes_on {s : PairRun K} {k : Nat} (h : Follows carried deviceIdOf caller s k)
    {x : Side} (going : (s.ends x).party.finished = false) :
    ∃ l s', s.step deviceIdOf l = some s' := by
  cases h with
  | meets own codes named a => exact a.goes_on going
  | shut own codes nameless shut =>
      obtain untried | failed := shut.ends x
      · exact ⟨.join x, _, shut.join deviceIdOf untried⟩
      · rw [failed] at going
        cases going

/-- What a pairing of two callers comes to. -/
structure Completes (carried : String → Option String) (deviceIdOf : K → String)
    (caller : Side → PairCaller K) : Prop where
  /-- No state is stuck before both are done, and no run goes on without end. -/
  goes_on : ∀ s, (machine carried deviceIdOf caller).Reachable s →
    (machine carried deviceIdOf caller).Stuck Machine.Always s →
      ∀ x, (s.ends x).party.finished = true
  ends : ∀ run, ¬ (machine carried deviceIdOf caller).Endless Machine.Always run
  same : ∀ channel secret, (∀ x, splitCode (caller x).code = some (channel, secret)) →
    (room carried channel).isSome = true → ∀ s, (machine carried deviceIdOf caller).Reachable s →
      ∀ x result, (s.ends x).party.phase = .done result → result =
        .ok ⟨deviceIdOf (caller x.other).key, (caller x.other).key, (caller x.other).name⟩
  different : ∀ channel secret secret', splitCode (caller .a).code = some (channel, secret) →
    splitCode (caller .b).code = some (channel, secret') → secret ≠ secret' →
      ∀ s, (machine carried deviceIdOf caller).Reachable s → ∀ x peer,
        (s.ends x).party.phase ≠ .done (.ok peer)
  /-- Where no request with the channel is upgraded, both calls fail and no room is made. -/
  refused : ∀ channel secret, splitCode (caller .a).code = some (channel, secret) →
    room carried channel = none → ∀ s, (machine carried deviceIdOf caller).Reachable s →
      s.hub = .new ∧ ∀ x result, (s.ends x).party.phase = .done result →
        result = .error .connect

/-- Two parties with distinct keys come to an end, whatever the order of the steps. -/
theorem pairing_completes (carried : String → Option String) (deviceIdOf : K → String)
    (caller : Side → PairCaller K) (distinct : (caller .a).key ≠ (caller .b).key) :
    Completes carried deviceIdOf caller := by
  refine ⟨fun s run stuck x => ?_, fun run => ?_,
    fun channel secret code open_ s run x result done => ?_,
    fun channel secret secret' code code' ne s run x peer done => ?_,
    fun channel secret code none_ s run => ?_⟩
  · obtain ⟨k, follows⟩ := follows_of_reachable distinct run
    by_contra going
    obtain ⟨l, s', stepped⟩ := follows.goes_on (Bool.not_eq_true _ ▸ going)
    rw [show s.step deviceIdOf l = none from stuck l trivial] at stepped
    cases stepped
  · refine Machine.not_endless_of_rank (Follows carried deviceIdOf caller) ?_ ?_ run
    · exact fun s first => follows_init first
    · exact fun s k l s' follows _ stepped => follows.step distinct stepped
  · obtain ⟨k, follows⟩ := follows_of_reachable distinct run
    cases follows with
    | @meets m n _ own codes named a =>
        subst own
        have secrets : m.secret .a = m.secret .b := by
          have one := (codes .a).symm.trans (code .a)
          have other := (codes .b).symm.trans (code .b)
          exact (Prod.mk.inj (Option.some.inj one)).2.trans
            (Prod.mk.inj (Option.some.inj other)).2.symm
        rw [a.verdict done]
        exact m.verdict_same deviceIdOf x secrets
    | shut own codes nameless shut =>
        obtain ⟨rfl, -⟩ := Prod.mk.inj (Option.some.inj ((codes .a).symm.trans (code .a)))
        rw [nameless] at open_
        cases open_
  · obtain ⟨k, follows⟩ := follows_of_reachable distinct run
    cases follows with
    | @meets m n _ own codes named a =>
        subst own
        have secret_ := (Prod.mk.inj (Option.some.inj (code.symm.trans (codes .a)))).2
        have secret_' := (Prod.mk.inj (Option.some.inj (code'.symm.trans (codes .b)))).2
        have verdict := a.verdict done
        rw [m.verdict_different deviceIdOf x (secret_ ▸ secret_' ▸ ne)] at verdict
        cases verdict
    | shut own codes nameless shut => cases shut.result done
  · obtain ⟨k, follows⟩ := follows_of_reachable distinct run
    cases follows with
    | meets own codes named a =>
        obtain ⟨rfl, -⟩ := Prod.mk.inj (Option.some.inj ((codes .a).symm.trans code))
        rw [named] at none_
        cases none_
    | shut own codes nameless shut => exact ⟨shut.hub, fun x result done => shut.result done⟩

/-- Both calls come to fail where no request with the channel is upgraded. -/
theorem both_fail (channel : String) (secret : Side → String)
    (codes : ∀ x, splitCode (caller x).code = some (channel, secret x))
    (none_ : room carried channel = none) :
    ∃ s, (machine carried deviceIdOf caller).Reachable s ∧
      ∀ x, (s.ends x).party.phase = .done (.error .connect) := by
  let m : PairMeeting K := ⟨channel, secret, caller⟩
  have shut : m.Shut (m.start false) := .start
  have first : (machine carried deviceIdOf caller).init (m.start false) :=
    ⟨channel, secret, codes, by rw [none_]; rfl⟩
  have one : (m.start false).step deviceIdOf (.join .a) = some _ := shut.join deviceIdOf rfl
  have other := (shut.step one).1.join deviceIdOf (x := .b) rfl
  have tried : (machine carried deviceIdOf caller).Reachable _ :=
    .next (a := .join .a) (.start first) trivial one
  refine ⟨_, .next (a := .join .b) tried trivial other, fun x => ?_⟩
  cases x <;> rfl

/-- The channels that need no escaping, as they stand. -/
def plain (channel : String) : Option String :=
  if channel.toList.all fun c => c.isAlphanum then some channel else none

def desk (code : String) : Side → PairCaller Nat
  | .a => ⟨code, 3, "desk"⟩
  | .b => ⟨code, 5, "phone"⟩

/-- The first party is done and has left before the second has read its last frame. -/
def early : List PairRunLabel :=
  [.join .a, .join .b, .write .a, .take .a, .write .b, .relay .a, .take .b, .relay .b, .write .b,
    .write .a, .take .b, .take .a, .relay .b, .relay .a, .write .a, .take .a, .close .a, .leave .a,
    .write .b, .write .b, .take .b]

/-- The start of two calls with one code. -/
def deskStart (code channel secret : String) : PairRun Nat :=
  (PairMeeting.mk ((room plain channel).getD channel) (fun _ => secret) (desk code)).start
    (room plain channel).isSome

theorem deskStart_init {code channel secret : String}
    (split_ : splitCode code = some (channel, secret)) :
    (machine plain toString (desk code)).init (deskStart code channel secret) :=
  ⟨channel, fun _ => secret, fun x => by cases x <;> exact split_, rfl⟩

theorem pairing_completes_early : (∃ s, (machine plain toString (desk "7-crossbow")).Reachable s ∧
    (s.hub.status (connection "7" .a)).gone = true ∧ (s.ends .a).party.finished = true ∧
      (s.ends .b).party.finished = true) ∧ Completes plain toString (desk "7-crossbow") := by
  refine ⟨?_, pairing_completes plain toString (desk "7-crossbow") (by decide)⟩
  exact Machine.exists_reachableBy (machine plain toString (desk "7-crossbow")) Machine.Always
    (s := deskStart "7-crossbow" "7" "crossbow") (deskStart_init (by decide)) early
    (fun s => (s.hub.status (connection "7" .a)).gone = true ∧
      (s.ends .a).party.finished = true ∧ (s.ends .b).party.finished = true) (by decide)

/-- Two people type this code, and both calls fail to connect. -/
def Refused (code : String) : Prop :=
  (∃ parts, splitCode code = some parts) ∧
    ∃ s, (machine plain toString (desk code)).Reachable s ∧
      ∀ x, (s.ends x).party.phase = .done (.error .connect)

theorem refused_of_split {code channel secret : String}
    (parts : splitCode code = some (channel, secret)) (none_ : room plain channel = none) :
    Refused code :=
  ⟨⟨_, parts⟩, both_fail channel (fun _ => secret) (fun x => by cases x <;> exact parts) none_⟩

/-- A blank cannot stand in the URL, and the relay has no room for a channel of 129 digits: two
parties with one code fail to pair. -/
theorem pairing_refused : Refused "blue sky-horse" ∧
    Refused (String.ofList (List.replicate 129 '7') ++ "-horse") := by
  have blank : splitCode "blue sky-horse" = some ("blue sky", "horse") := by decide
  have long : splitCode (String.ofList (List.replicate 129 '7') ++ "-horse") =
      some (String.ofList (List.replicate 129 '7'), "horse") := by decide +kernel
  exact ⟨refused_of_split blank (by decide), refused_of_split long (by decide +kernel)⟩

end PairRun
end ReachMyDevice
