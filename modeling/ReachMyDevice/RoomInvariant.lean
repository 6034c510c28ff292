import Mathlib.Data.List.Nodup
import ReachMyDevice.PairingRooms

/-!
# What holds of every pairing room

The members of a room are the connections that have joined under its code and
not left. Who is told what follows from that.
-/
namespace ReachMyDevice
open Machines

/-- The rooms, with what has been sent, newest first. -/
structure RoomHistory (J : Type) where
  hub : PairingRooms
  log : List (RoomSend J)

/-- The last notice that a connection was sent. -/
def lastNotice {J : Type} (c : PairConnection) : List (RoomSend J) → Option (RoomText J)
  | [] => none
  | d :: earlier =>
    if d.receiver = c then
      match d.text with
      | .joined => some .joined
      | .left => some .left
      | .full | .payload _ => lastNotice c earlier
    else lastNotice c earlier

/-- The other member of a connection's room is sent a text, and nobody else is sent anything. -/
structure OnlyOther {J : Type} (members : List RoomMember) (c : PairConnection)
    (text : RoomText J) (sent : List (RoomSend J)) : Prop where
  other : ∀ m ∈ members, m.tx ≠ c → sent = [⟨m.tx, text⟩]
  alone : (∀ m ∈ members, m.tx = c) → sent = []

namespace PairingRooms
variable {J : Type} {s : PairingRooms}

/-- A connection is a member of its room under some number. -/
def Belongs (s : PairingRooms) (m : RoomMember) : Prop :=
  (s.status m.tx).memberId = some m.id ∧ (s.status m.tx).gone = false

structure Kept (s : PairingRooms) : Prop where
  tidy : ∀ code, s.rooms code ≠ some []
  few : ∀ code, (s.members code).length ≤ 2
  distinct : ∀ code, ((s.members code).map (·.id)).Nodup
  mem : ∀ code m, m ∈ s.members code ↔ m.tx.code = code ∧ s.Belongs m
  fresh : ∀ c id, (s.status c).memberId = some id → id < s.nextMember
  unasked : ∀ c, (s.status c).asked = false →
    (s.status c).memberId = none ∧ (s.status c).gone = false

theorem kept_new : new.Kept where
  tidy _ := nofun
  few _ := Nat.zero_le 2
  distinct _ := List.nodup_nil
  mem _ _ := ⟨nofun, fun h => nomatch h.2.1⟩
  fresh _ _ := nofun
  unasked _ _ := ⟨rfl, rfl⟩

theorem members_of_some {code : String} {ms : List RoomMember} (h : s.rooms code = some ms) :
    s.members code = ms := by
  rw [members, h]
  rfl

theorem rooms_of_mem {code : String} {m : RoomMember} (h : m ∈ s.members code) :
    s.rooms code = some (s.members code) := by
  rw [members] at h ⊢
  cases room : s.rooms code with
  | none => rw [room] at h; cases h
  | some ms => rfl

/-- One member has one connection, and a connection is one member. -/
theorem Kept.same_iff (k : s.Kept) {code : String} {m m' : RoomMember} (h : m ∈ s.members code)
    (h' : m' ∈ s.members code) : m.id = m'.id ↔ m.tx = m'.tx := by
  constructor
  · intro same
    exact congrArg _ (List.inj_on_of_nodup_map (k.distinct code) h h' same)
  · intro same
    have one := ((k.mem code m).mp h).2.1
    have two := ((k.mem code m').mp h').2.1
    rw [same] at one
    exact Option.some.inj (one.symm.trans two)

theorem status_setStatus_self (c : PairConnection) (status : PairStatus) :
    (s.setStatus c status).status c = status := Function.update_self ..

theorem status_setStatus_other {c d : PairConnection} (ne : d ≠ c) (status : PairStatus) :
    (s.setStatus c status).status d = s.status d := Function.update_of_ne ne ..

/-- A status changes in what does not concern membership. -/
theorem Kept.setStatus (k : s.Kept) {c : PairConnection} {status : PairStatus}
    (memberId : status.memberId = (s.status c).memberId) (gone : status.gone = (s.status c).gone)
    (asked : status.asked = false → (s.status c).asked = false) : (s.setStatus c status).Kept := by
  have same : ∀ d, ((s.setStatus c status).status d).memberId = (s.status d).memberId ∧
      ((s.setStatus c status).status d).gone = (s.status d).gone := by
    intro d
    by_cases mine : d = c
    · rw [mine, status_setStatus_self]
      exact ⟨memberId, gone⟩
    · rw [status_setStatus_other mine]
      exact ⟨rfl, rfl⟩
  refine ⟨k.tidy, k.few, k.distinct, fun code m => ?_, fun d id => ?_, fun d unasked => ?_⟩
  · rw [Belongs, (same m.tx).1, (same m.tx).2]
    exact k.mem code m
  · rw [(same d).1]
    exact k.fresh d id
  · rw [(same d).1, (same d).2]
    by_cases mine : d = c
    · subst mine
      rw [status_setStatus_self] at unasked
      exact k.unasked d (asked unasked)
    · rw [status_setStatus_other mine] at unasked
      exact k.unasked d unasked

/-- The rooms with a connection that has joined. -/
def entered (s : PairingRooms) (c : PairConnection) : PairingRooms :=
  ({ s.setRoom c.code (some (s.members c.code ++ [⟨s.nextMember, c⟩])) with
    nextMember := s.nextMember + 1 } : PairingRooms).setStatus c
      { s.status c with asked := true, memberId := some s.nextMember }

theorem members_entered (c : PairConnection) (code : String) : (s.entered c).members code =
    if code = c.code then s.members c.code ++ [⟨s.nextMember, c⟩] else s.members code := by
  simp only [members, entered, PairingRooms.setStatus, setRoom, Function.update_apply]
  split <;> rfl

theorem Kept.entered (k : s.Kept) {c : PairConnection} (unasked : (s.status c).asked = false)
    (room : (s.members c.code).length < 2) : (s.entered c).Kept := by
  obtain ⟨none_, here⟩ := k.unasked c unasked
  have self : (s.entered c).status c = { s.status c with
      asked := true, memberId := some s.nextMember } := Function.update_self ..
  have other : ∀ d, d ≠ c → (s.entered c).status d = s.status d :=
    fun d ne => Function.update_of_ne ne ..
  -- A connection that has not joined is no member.
  have out_ : ∀ code m, m ∈ s.members code → m.tx ≠ c := by
    rintro code m member rfl
    have listed := ((k.mem code m).mp member).2.1
    rw [none_] at listed
    cases listed
  refine ⟨fun code => ?_, fun code => ?_, fun code => ?_, fun code m => ?_, fun d id => ?_,
    fun d => ?_⟩
  · show Function.update s.rooms c.code _ code ≠ some []
    by_cases named : code = c.code
    · rw [named, Function.update_self]
      exact fun empty => List.append_ne_nil_of_right_ne_nil _ (List.cons_ne_nil _ _)
        (Option.some.inj empty)
    · rw [Function.update_of_ne named]
      exact k.tidy code
  · rw [members_entered]
    split
    · rw [List.length_append, List.length_singleton]
      omega
    · exact k.few code
  · rw [members_entered]
    split
    · rw [List.map_append, List.nodup_append]
      refine ⟨k.distinct _, List.nodup_singleton _, ?_⟩
      rintro id listed _ new rfl
      obtain ⟨m, member, rfl⟩ := List.mem_map.mp listed
      have old := k.fresh _ _ ((k.mem _ m).mp member).2.1
      have same := List.mem_singleton.mp new
      simp only at same
      omega
    · exact k.distinct code
  · rw [members_entered, Belongs]
    by_cases mine : m.tx = c
    · rw [mine, self]
      have none' : m ∉ s.members code := fun member => out_ code m member mine
      split
      · rename_i named
        rw [List.mem_append, List.mem_singleton, ← named]
        constructor
        · rintro (member | rfl)
          · exact absurd member none'
          · exact ⟨rfl, rfl, here⟩
        · rintro ⟨-, id, -⟩
          refine .inr ?_
          cases m
          cases mine
          cases id
          rfl
      · rename_i named
        exact ⟨fun member => absurd member none', fun h => absurd h.1.symm named⟩
    · rw [other _ mine]
      split
      · rename_i named
        rw [List.mem_append, List.mem_singleton, ← named, k.mem]
        refine ⟨fun h => h.resolve_right ?_, .inl⟩
        rintro rfl
        exact mine rfl
      · exact k.mem code m
  · by_cases mine : d = c
    · rw [mine, self]
      rintro ⟨⟩
      exact Nat.lt_succ_self _
    · rw [other d mine]
      exact fun joined => Nat.lt_succ_of_lt (k.fresh d id joined)
  · by_cases mine : d = c
    · rw [mine, self]
      exact nofun
    · rw [other d mine]
      exact k.unasked d

/-- The rooms without a connection that has left. -/
def departed (s : PairingRooms) (c : PairConnection) (id : Nat) : PairingRooms :=
  let stay := (s.members c.code).filter (·.id ≠ id)
  (s.setRoom c.code (if stay.isEmpty then none else some stay)).setStatus c
    { s.status c with gone := true }

theorem getD_stay (stay : List RoomMember) :
    (if stay.isEmpty then none else some stay : Option (List RoomMember)).getD [] = stay := by
  cases stay <;> rfl

theorem members_departed (c : PairConnection) (id : Nat) (code : String) :
    (s.departed c id).members code =
      if code = c.code then (s.members c.code).filter (·.id ≠ id) else s.members code := by
  simp only [members, departed, PairingRooms.setStatus, setRoom, Function.update_apply]
  split
  · exact getD_stay _
  · rfl

theorem Kept.departed (k : s.Kept) {c : PairConnection} {id : Nat} (belongs : s.Belongs ⟨id, c⟩) :
    (s.departed c id).Kept := by
  have self : (s.departed c id).status c = { s.status c with gone := true } :=
    Function.update_self ..
  have other : ∀ d, d ≠ c → (s.departed c id).status d = s.status d :=
    fun d ne => Function.update_of_ne ne ..
  have listed : (⟨id, c⟩ : RoomMember) ∈ s.members c.code := (k.mem _ _).mpr ⟨rfl, belongs⟩
  refine ⟨fun code => ?_, fun code => ?_, fun code => ?_, fun code m => ?_, fun d number => ?_,
    fun d => ?_⟩
  · show Function.update s.rooms c.code _ code ≠ some []
    by_cases named : code = c.code
    · rw [named, Function.update_self]
      split
      · exact nofun
      · rename_i stays
        exact fun empty => stays (List.isEmpty_iff.mpr (Option.some.inj empty))
    · rw [Function.update_of_ne named]
      exact k.tidy code
  · rw [members_departed]
    split
    · exact Nat.le_trans (List.length_filter_le ..) (k.few _)
    · exact k.few code
  · rw [members_departed]
    split
    · exact (k.distinct _).sublist (List.filter_sublist.map _)
    · exact k.distinct code
  · rw [members_departed, Belongs]
    by_cases mine : m.tx = c
    · rw [mine, self]
      refine ⟨fun member => ?_, fun h => nomatch h.2.2⟩
      split at member
      · obtain ⟨member, ne⟩ := List.mem_filter.mp member
        exact absurd ((k.same_iff member listed).mpr mine) (of_decide_eq_true ne)
      · rename_i named
        exact absurd (((k.mem code m).mp member).1.symm.trans (mine ▸ rfl)) named
    · rw [other _ mine]
      split
      · rename_i named
        rw [List.mem_filter, ← named, k.mem]
        refine ⟨And.left, fun h => ⟨h, decide_eq_true fun same => mine ?_⟩⟩
        exact (k.same_iff ((k.mem c.code m).mpr (named ▸ h)) listed).mp same
      · exact k.mem code m
  · by_cases mine : d = c
    · rw [mine, self]
      exact k.fresh c number
    · rw [other d mine]
      exact k.fresh d number
  · by_cases mine : d = c
    · rw [mine, self]
      intro unasked
      have none_ := (k.unasked c unasked).1
      rw [belongs.1] at none_
      cases none_
    · rw [other d mine]
      exact k.unasked d

/-- What a step is, in rooms whose members belong to them. -/
inductive Steps (s : PairingRooms) : RoomLabel J → PairingRooms → List (RoomSend J) → Prop
  | entered (c : PairConnection) (unasked : (s.status c).asked = false)
      (room : (s.members c.code).length < 2) :
      Steps s (.join c) (s.entered c) ((s.members c.code).map (⟨·.tx, .joined⟩) ++
        if (s.members c.code).isEmpty then [] else [⟨c, .joined⟩])
  | full (c : PairConnection) (unasked : (s.status c).asked = false)
      (none_ : 2 ≤ (s.members c.code).length) :
      Steps s (.join c) (s.setStatus c { s.status c with asked := true }) [⟨c, .full⟩]
  | received (c : PairConnection) (id : Nat) (joined : (s.status c).memberId = some id)
      (payload : Option J) :
      Steps s (.receive c payload) s ((payload.map (s.relayRoom c.code id)).getD [])
  | receiveEnds (c : PairConnection) :
      Steps s (.receiveEnds c) (s.setStatus c { s.status c with receiving := false }) []
  | sendEnds (c : PairConnection) :
      Steps s (.sendEnds c) (s.setStatus c { s.status c with sending := false }) []
  | departed (c : PairConnection) (id : Nat) (belongs : s.Belongs ⟨id, c⟩) :
      Steps s (.leave c) (s.departed c id)
        (((s.members c.code).filter (·.id ≠ id)).map (⟨·.tx, .left⟩))

theorem Kept.step_cases (k : s.Kept) {l : RoomLabel J} {s' : PairingRooms}
    {sent : List (RoomSend J)} (stepped : s.step l = some (s', sent)) : s.Steps l s' sent := by
  cases l with
  | join c =>
      simp only [step] at stepped
      split at stepped
      · cases stepped
      · rename_i unasked
        have unasked := Bool.not_eq_true _ ▸ unasked
        by_cases room : 2 ≤ (s.members c.code).length
        · rw [joinRoom, if_pos room] at stepped
          cases stepped
          exact .full c unasked room
        · rw [joinRoom, if_neg room] at stepped
          cases stepped
          exact .entered c unasked (Nat.not_le.mp room)
  | receive c payload =>
      simp only [step] at stepped
      split at stepped
      · rename_i id joined
        obtain ⟨-, eq⟩ := Option.ite_none_right_eq_some.mp stepped
        cases eq
        cases payload with
        | none => exact .received c id joined none
        | some payload => exact .received c id joined (some payload)
      · cases stepped
  | receiveEnds c =>
      obtain ⟨-, eq⟩ := Option.ite_none_right_eq_some.mp stepped
      cases eq
      exact .receiveEnds c
  | sendEnds c =>
      obtain ⟨-, eq⟩ := Option.ite_none_right_eq_some.mp stepped
      cases eq
      exact .sendEnds c
  | leave c =>
      simp only [step] at stepped
      split at stepped
      · rename_i id joined
        obtain ⟨here, eq⟩ := Option.ite_none_left_eq_some.mp stepped
        have belongs : s.Belongs ⟨id, c⟩ :=
          ⟨joined, Bool.not_eq_true _ ▸ fun gone => here (.inl gone)⟩
        have room := rooms_of_mem ((k.mem c.code ⟨id, c⟩).mpr ⟨rfl, belongs⟩)
        rw [leaveRoom, room] at eq
        cases eq
        exact .departed c id belongs
      · cases stepped

theorem Kept.step (k : s.Kept) {l : RoomLabel J} {s' : PairingRooms} {sent : List (RoomSend J)}
    (steps : s.Steps l s' sent) : s'.Kept := by
  cases steps with
  | entered c unasked room => exact k.entered unasked room
  | full c unasked none_ => exact k.setStatus rfl rfl nofun
  | received c id joined payload => exact k
  | receiveEnds c => exact k.setStatus rfl rfl id
  | sendEnds c => exact k.setStatus rfl rfl id
  | departed c id belongs => exact k.departed belongs

/-- A connection that is in its room belongs to it, under the number it was given. -/
theorem Kept.belongs (k : s.Kept) {c : PairConnection} {id : Nat}
    (inside : ∃ m ∈ s.members c.code, m.tx = c) (joined : (s.status c).memberId = some id) :
    s.Belongs ⟨id, c⟩ := by
  obtain ⟨m, member, rfl⟩ := inside
  exact ⟨joined, ((k.mem _ m).mp member).2.2⟩

/-- The others of a room, by number or by connection. -/
theorem Kept.others (k : s.Kept) {c : PairConnection} {id : Nat} (belongs : s.Belongs ⟨id, c⟩) :
    (s.members c.code).filter (·.id ≠ id) = (s.members c.code).filter (·.tx ≠ c) := by
  have listed : (⟨id, c⟩ : RoomMember) ∈ s.members c.code := (k.mem _ _).mpr ⟨rfl, belongs⟩
  refine List.filter_congr fun m member => ?_
  exact decide_eq_decide.mpr (not_congr (k.same_iff member listed))

/-- One member at most is not a connection that belongs to the room. -/
theorem Kept.others_few (k : s.Kept) {c : PairConnection} {id : Nat}
    (belongs : s.Belongs ⟨id, c⟩) : ((s.members c.code).filter (·.id ≠ id)).length ≤ 1 := by
  have listed : (⟨id, c⟩ : RoomMember) ∈ s.members c.code := (k.mem _ _).mpr ⟨rfl, belongs⟩
  have less := List.length_filter_lt_length_iff_exists
    (p := fun m : RoomMember => decide (m.id ≠ id)).mpr ⟨_, listed, by simp⟩
  have few := k.few c.code
  omega

theorem Kept.onlyOther (k : s.Kept) {c : PairConnection} {id : Nat} (belongs : s.Belongs ⟨id, c⟩)
    (text : RoomText J) : OnlyOther (s.members c.code) c text
      (((s.members c.code).filter (·.id ≠ id)).map (⟨·.tx, text⟩)) := by
  have few := k.others_few belongs
  rw [k.others belongs] at few ⊢
  refine ⟨fun m member ne => ?_, fun all => ?_⟩
  · have stays : m ∈ (s.members c.code).filter (·.tx ≠ c) :=
      List.mem_filter.mpr ⟨member, decide_eq_true ne⟩
    obtain ⟨only, eq⟩ := List.length_eq_one_iff.mp
      (Nat.le_antisymm few (List.length_pos_of_mem stays))
    rw [eq] at stays ⊢
    rw [List.mem_singleton.mp stays]
    rfl
  · have nobody : (s.members c.code).filter (·.tx ≠ c) = [] :=
      List.filter_eq_nil_iff.mpr fun m member ne => of_decide_eq_true ne (all m member)
    rw [nobody]
    rfl

/-- Who is told of a newcomer is the newcomer or waits in the room. -/
theorem mem_welcomes {c : PairConnection} {d : RoomSend J}
    (listed : d ∈ (s.members c.code).map (⟨·.tx, .joined⟩) ++
      if (s.members c.code).isEmpty then [] else [⟨c, .joined⟩]) :
    d.text = .joined ∧ (d.receiver = c ∨ ∃ m ∈ s.members c.code, m.tx = d.receiver) := by
  obtain old | new := List.mem_append.mp listed
  · obtain ⟨m, member, rfl⟩ := List.mem_map.mp old
    exact ⟨rfl, .inr ⟨m, member, rfl⟩⟩
  · split at new
    · cases new
    · obtain rfl := List.mem_singleton.mp new
      exact ⟨rfl, .inl rfl⟩

end PairingRooms

namespace RoomHistory
variable {J : Type}

variable (J) in
def machine : Machine (RoomHistory J) (RoomLabel J) where
  init h := h = ⟨.new, []⟩
  step h l := (h.hub.step l).map fun out => ⟨out.1, out.2.reverse ++ h.log⟩

/-- What is claimed of the rooms and of what is sent. -/
structure RoomsHold (h : RoomHistory J) : Prop where
  formed : ∀ code ms, h.hub.rooms code = some ms →
    (ms.length = 1 ∨ ms.length = 2) ∧ (ms.map (·.id)).Nodup ∧ (ms.map (·.tx)).Nodup
  third : ∀ c ms s' (sent : List (RoomSend J)), h.hub.rooms c.code = some ms → ms.length = 2 →
    h.hub.step (.join c) = some (s', sent) →
      s'.rooms = h.hub.rooms ∧ (s'.status c).memberId = none ∧ sent = [⟨c, .full⟩]
  relayed : ∀ c ms (payload : J) s' sent, h.hub.rooms c.code = some ms → (∃ m ∈ ms, m.tx = c) →
    h.hub.step (.receive c (some payload)) = some (s', sent) →
      OnlyOther ms c (.payload payload) sent
  told : ∀ c ms (payload : Option J) s' sent, h.hub.rooms c.code = some ms →
    (∃ m ∈ ms, m.tx = c) → h.hub.step (.receive c payload) = some (s', sent) →
      ∀ d ∈ sent, lastNotice d.receiver h.log = some .joined
  stays : ∀ c s' (sent : List (RoomSend J)), h.hub.step (.leave c) = some (s', sent) →
    OnlyOther (h.hub.members c.code) c .left sent ∧
      sent = (s'.members c.code).map (⟨·.tx, .left⟩)
  only : ∀ (l : RoomLabel J) s' sent, h.hub.step l = some (s', sent) →
    ∀ d ∈ sent, d.text = .left → ∃ c, l = .leave c

/-- Members belong to their rooms, and two that are together have been told last that a peer
has joined. -/
structure Told (h : RoomHistory J) : Prop where
  kept : h.hub.Kept
  together : ∀ code m other, m ∈ h.hub.members code → other ∈ h.hub.members code → m ≠ other →
    lastNotice m.tx h.log = some .joined

theorem lastNotice_other {c : PairConnection} {sent log : List (RoomSend J)}
    (none_ : ∀ d ∈ sent, d.receiver ≠ c) : lastNotice c (sent ++ log) = lastNotice c log := by
  induction sent with
  | nil => rfl
  | cons d sent ih =>
      rw [List.cons_append, lastNotice, if_neg (none_ d List.mem_cons_self)]
      exact ih fun e member => none_ e (List.mem_cons_of_mem _ member)

theorem lastNotice_quiet {c : PairConnection} {sent log : List (RoomSend J)}
    (quiet : ∀ d ∈ sent, d.text ≠ .joined ∧ d.text ≠ .left) :
    lastNotice c (sent ++ log) = lastNotice c log := by
  induction sent with
  | nil => rfl
  | cons d sent ih =>
      obtain ⟨noJoined, noLeft⟩ := quiet d List.mem_cons_self
      have rest := ih fun e member => quiet e (List.mem_cons_of_mem _ member)
      rw [List.cons_append, lastNotice]
      split
      · split
        · contradiction
        · contradiction
        · exact rest
        · exact rest
      · exact rest

/-- Who joins a room is told that there is a peer, as is who waits there. -/
theorem lastNotice_joined {c : PairConnection} {sent log : List (RoomSend J)}
    (all : ∀ d ∈ sent, d.text = .joined) (told : ∃ d ∈ sent, d.receiver = c) :
    lastNotice c (sent ++ log) = some .joined := by
  induction sent with
  | nil =>
      obtain ⟨d, member, -⟩ := told
      cases member
  | cons d sent ih =>
      rw [List.cons_append, lastNotice]
      split
      · rw [all d List.mem_cons_self]
      · rename_i other
        obtain ⟨e, member, named⟩ := told
        obtain rfl | member := List.mem_cons.mp member
        · exact absurd named other
        · exact ih (fun e member => all e (List.mem_cons_of_mem _ member)) ⟨e, member, named⟩

theorem Told.step {h : RoomHistory J} (t : h.Told) {l : RoomLabel J} {s' : PairingRooms}
    {sent : List (RoomSend J)} (steps : h.hub.Steps l s' sent) :
    Told ⟨s', sent.reverse ++ h.log⟩ := by
  have kept := t.kept.step steps
  refine ⟨kept, fun code m other member member' ne => ?_⟩
  show lastNotice m.tx (sent.reverse ++ h.log) = some .joined
  cases steps with
  | entered c unasked room =>
      rw [PairingRooms.members_entered] at member member'
      by_cases named : code = c.code
      · rw [if_pos named] at member member'
        refine lastNotice_joined (fun d sent => ?_) ?_
        · exact (PairingRooms.mem_welcomes (List.mem_reverse.mp sent)).1
        · refine ⟨⟨m.tx, .joined⟩, List.mem_reverse.mpr (List.mem_append.mpr ?_), rfl⟩
          obtain old | new := List.mem_append.mp member
          · exact .inl (List.mem_map.mpr ⟨m, old, rfl⟩)
          · -- The newcomer is not alone, since the other one is there.
            obtain rfl := List.mem_singleton.mp new
            obtain old' | new' := List.mem_append.mp member'
            · rw [if_neg fun empty => List.ne_nil_of_mem old' (List.isEmpty_iff.mp empty)]
              exact .inr (List.mem_singleton_self _)
            · exact absurd (List.mem_singleton.mp new').symm ne
      · rw [if_neg named] at member member'
        rw [lastNotice_other]
        · exact t.together code m other member member' ne
        · intro d sent same
          refine named ?_
          rw [← ((t.kept.mem code m).mp member).1, ← same]
          obtain ⟨-, new | ⟨m', waits, old⟩⟩ := PairingRooms.mem_welcomes (List.mem_reverse.mp sent)
          · rw [new]
          · rw [← old]
            exact ((t.kept.mem _ m').mp waits).1
  | full c unasked none_ =>
      rw [lastNotice_quiet]
      · exact t.together code m other member member' ne
      · intro d listed
        obtain rfl := List.mem_singleton.mp listed
        exact ⟨nofun, nofun⟩
  | received c id joined payload =>
      rw [lastNotice_quiet]
      · exact t.together code m other member member' ne
      · intro d listed
        cases payload with
        | none => cases listed
        | some payload =>
            obtain ⟨m, -, rfl⟩ := List.mem_map.mp (List.mem_reverse.mp listed)
            exact ⟨nofun, nofun⟩
  | receiveEnds c => exact t.together code m other member member' ne
  | sendEnds c => exact t.together code m other member member' ne
  | departed c id belongs =>
      rw [PairingRooms.members_departed] at member member'
      by_cases named : code = c.code
      · rw [if_pos named] at member member'
        obtain ⟨only, eq⟩ := List.length_eq_one_iff.mp
          (Nat.le_antisymm (t.kept.others_few belongs) (List.length_pos_of_mem member))
        rw [eq] at member member'
        exact absurd ((List.mem_singleton.mp member).trans (List.mem_singleton.mp member').symm) ne
      · rw [if_neg named] at member member'
        rw [lastNotice_other]
        · exact t.together code m other member member' ne
        · intro d sent same
          obtain ⟨m', stays, rfl⟩ := List.mem_map.mp (List.mem_reverse.mp sent)
          refine named ?_
          rw [← ((t.kept.mem code m).mp member).1, ← same]
          exact ((t.kept.mem _ m').mp (List.mem_of_mem_filter stays)).1

theorem told {h : RoomHistory J} (run : (machine J).Reachable h) : h.Told := by
  refine run.invariant (I := Told) ?_ ?_
  · rintro h rfl
    exact ⟨PairingRooms.kept_new, fun _ _ _ => nofun⟩
  · intro h l h' t stepped
    obtain ⟨⟨s', sent⟩, taken, rfl⟩ := Option.map_eq_some_iff.mp stepped
    exact t.step (t.kept.step_cases taken)

/-- Every room is formed as it should be, and what is sent goes where it should. -/
theorem rooms_hold {h : RoomHistory J} (run : (machine J).Reachable h) : h.RoomsHold := by
  have t := told run
  have k := t.kept
  refine ⟨fun code ms room => ?_, fun c ms s' sent room full stepped => ?_,
    fun c ms payload s' sent room inside stepped => ?_,
    fun c ms payload s' sent room inside stepped d listed => ?_,
    fun c s' sent stepped => ?_, fun l s' sent stepped d listed left => ?_⟩
  · obtain rfl := PairingRooms.members_of_some room
    refine ⟨?_, k.distinct code, ?_⟩
    · have few := k.few code
      have some_ : (h.hub.members code).length ≠ 0 := by
        intro empty
        rw [List.eq_nil_of_length_eq_zero empty] at room
        exact k.tidy code room
      omega
    · refine List.Nodup.map_on (fun m member m' member' same => ?_) (List.Nodup.of_map _ (k.distinct code))
      exact List.inj_on_of_nodup_map (k.distinct code) member member'
        ((k.same_iff member member').mpr same)
  · obtain rfl := PairingRooms.members_of_some room
    cases k.step_cases stepped with
    | entered _ unasked room => omega
    | full _ unasked none_ =>
        refine ⟨rfl, ?_, rfl⟩
        rw [PairingRooms.status_setStatus_self]
        exact (k.unasked c unasked).1
  · obtain rfl := PairingRooms.members_of_some room
    cases k.step_cases stepped with
    | received _ id joined _ => exact k.onlyOther (k.belongs inside joined) _
  · obtain rfl := PairingRooms.members_of_some room
    cases k.step_cases stepped with
    | received _ id joined _ =>
        have belongs := k.belongs inside joined
        cases payload with
        | none => cases listed
        | some payload =>
            obtain ⟨m, other, rfl⟩ := List.mem_map.mp listed
            obtain ⟨member, ne⟩ := List.mem_filter.mp other
            refine t.together c.code m ⟨id, c⟩ member ((k.mem _ _).mpr ⟨rfl, belongs⟩) ?_
            rintro rfl
            exact of_decide_eq_true ne rfl
  · cases k.step_cases stepped with
    | departed _ id belongs =>
        refine ⟨k.onlyOther belongs _, ?_⟩
        rw [PairingRooms.members_departed, if_pos rfl]
  · cases k.step_cases stepped with
    | entered c unasked room =>
        rw [(PairingRooms.mem_welcomes listed).1] at left
        cases left
    | full c unasked none_ =>
        obtain rfl := List.mem_singleton.mp listed
        cases left
    | received c id joined payload =>
        cases payload with
        | none => cases listed
        | some payload =>
            obtain ⟨m, -, rfl⟩ := List.mem_map.mp listed
            cases left
    | receiveEnds c => cases listed
    | sendEnds c => cases listed
    | departed c id belongs => exact ⟨c, rfl⟩

def visitor (channel : Nat) : PairConnection := ⟨channel, "42"⟩

/-- Two meet, one leaves, and a third takes the place. -/
theorem rooms_hold_reused : ∃ h, (machine String).Reachable h ∧
    h.hub.rooms "42" = some [⟨1, visitor 1⟩, ⟨2, visitor 2⟩] ∧ h.RoomsHold := by
  obtain ⟨h, run, room⟩ := Machine.exists_reachableBy (machine String) Machine.Always
    (s := ⟨.new, []⟩) rfl
    [.join (visitor 0), .join (visitor 1), .receive (visitor 0) (some "hi"),
      .receiveEnds (visitor 0), .leave (visitor 0), .join (visitor 2), .join (visitor 3)]
    (fun h => h.hub.rooms "42" = some [⟨1, visitor 1⟩, ⟨2, visitor 2⟩]) (by decide)
  exact ⟨h, run, room, rooms_hold run⟩

end RoomHistory
end ReachMyDevice
