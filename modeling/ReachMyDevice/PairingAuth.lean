import ReachMyDevice.Lib.Machine
import ReachMyDevice.Lib.Slots
import ReachMyDevice.PairPake

/-!
# Pairing against a relay that may do anything

Any number of honest calls run, of any codes and identities. The relay hears
all that they send, and gives each of them what it likes: any texts and SPAKE2
messages, and any tag that it has heard or can make.
-/
namespace ReachMyDevice
open Machines

/-- The call of some number has the nonce of that number. -/
structure PairNetwork (K : Type) where
  sessions : List (PairParty K)
  sent : List (Nat × PairMsg K)

inductive PairNetLabel (K : Type)
  | start (code : String) (key : K) (name : String)
  | deliver (i : Nat) (frame : PairFrame K)
  /-- A call fails by itself, as when it cannot send. -/
  | fail (i : Nat)

namespace PairNetwork
variable {K : Type} [LinearOrder K] (deviceIdOf : K → String) (known : String → Prop)

def step (s : PairNetwork K) : PairNetLabel K → Option (PairNetwork K)
  | .start code key name => (splitCode code).map fun split =>
    { s with sessions := s.sessions ++ [{
        secret := split.2, ownKey := key, name, nonce := .session s.sessions.length }] }
  | .deliver i frame => s.sessions[i]?.map fun p =>
    let (p', sent) := p.receive deviceIdOf frame
    { sessions := s.sessions.set i p', sent := s.sent ++ sent.map (i, ·) }
  | .fail i => s.sessions[i]?.bind fun p =>
    match p.phase with
    | .done _ => none
    | _ => some { s with sessions := s.sessions.set i { p with phase := .done (.error .badFrame) } }

def machine : Machine (PairNetwork K) (PairNetLabel K) where
  init s := s = ⟨[], []⟩
  step := step deviceIdOf

/-- Who knows the secret has the key of a run that had one of its own messages. -/
def KnowsKey (key : PairKey K) : Prop :=
  known key.ikm.secret ∧ ∃ n, Element.spake key.ikm.secret (.attacker n) ∈ key.ikm.messages

/-- The tags that the relay can send. -/
inductive Makes (sent : List (Nat × PairMsg K)) : PairTag K → Prop
  | heard (j : Nat) (tag : PairTag K) (member : (j, .confirm (some tag)) ∈ sent) : Makes sent tag
  | derived (key : PairKey K) (role : PairRole) (knows : KnowsKey known key) :
      Makes sent (.confirmation key role)
  | bytes (content : Nat) : Makes sent (.bytes content)

def Sends (s : PairNetwork K) : PairNetLabel K → Prop
  | .deliver _ (.text (some { payload := some (some (.confirm (some tag))), .. })) =>
    Makes known s.sent tag
  | _ => True

/-- A party that knows the secret has run the protocol in the opposite role, and has confirmed its
own key, which is the one returned, with ours. -/
inductive Partner (s : PairNetwork K) (p : PairParty K) (h : PeerHello K) : Prop
  | honest (j : Nat) (q : PairParty K) (h' : PeerHello K) (found : s.sessions[j]? = some q)
      (secret : q.secret = p.secret) (own : q.ownKey = h.publicKey) (heard : q.peer = some h')
      (ours : h'.publicKey = p.ownKey) (theirMessage : h.message = q.element)
      (ourMessage : h'.message = p.element)
      (role : (roleLabels q.ownKey p.ownKey).1 = (roleLabels p.ownKey q.ownKey).2)
      (confirmed : (j, .confirm (some (q.ourTag h'))) ∈ s.sent)
  | attacker (knows : known p.secret) (n : Nat)
      (ran : h.message = .spake p.secret (.attacker n))

/-- What is kept of the calls and of what they have sent. -/
structure Kept (s : PairNetwork K) : Prop where
  nonce : ∀ (i : Nat) (p : PairParty K), s.sessions[i]? = some p → p.nonce = .session i
  silent : ∀ (i : Nat) (p : PairParty K), s.sessions[i]? = some p →
    p.phase = .waiting ∨ p.phase = .greeting → p.peer = none
  sent : ∀ j tag, (j, .confirm (some tag)) ∈ s.sent →
    ∃ q h, s.sessions[j]? = some q ∧ q.peer = some h ∧ tag = q.ourTag h
  done : ∀ (i : Nat) (p : PairParty K) peer, s.sessions[i]? = some p → p.phase = .done (.ok peer) →
    ∃ h, p.peer = some h ∧ peer = ⟨deviceIdOf h.publicKey, h.publicKey, h.name⟩ ∧
      Makes known s.sent (p.expectedPeerTag h)

variable {deviceIdOf known} {s s' : PairNetwork K}

omit [LinearOrder K] in
theorem Makes.mono {sent more : List (Nat × PairMsg K)} {tag : PairTag K}
    (h : Makes known sent tag) : Makes known (sent ++ more) tag := by
  cases h with
  | heard j _ member => exact .heard j tag (List.mem_append_left _ member)
  | derived key role knows => exact .derived key role knows
  | bytes content => exact .bytes content

/-- Two parties of one identity in one place tag alike. -/
theorem ourTag_congr {p q : PairParty K} (secret : q.secret = p.secret) (own : q.ownKey = p.ownKey)
    (nonce : q.nonce = p.nonce) (h : PeerHello K) : q.ourTag h = p.ourTag h ∧
      q.expectedPeerTag h = p.expectedPeerTag h := by
  simp only [PairParty.ourTag, PairParty.expectedPeerTag, PairParty.key, PairParty.element, secret,
    own, nonce, and_self]

theorem kept_start : Kept deviceIdOf known (⟨[], []⟩ : PairNetwork K) := by
  refine ⟨fun i p found => ?_, fun i p found => ?_, fun j tag member => ?_, fun i p peer found => ?_⟩
  · cases found
  · cases found
  · cases member
  · cases found

variable (deviceIdOf known) in
/-- One party moves: it keeps who it is and whom it has heard, and what it sends and accepts are the
tags of the two. -/
structure Moves (sent : List (Nat × PairMsg K)) (p p' : PairParty K) (out : List (PairMsg K)) :
    Prop where
  secret : p'.secret = p.secret
  own : p'.ownKey = p.ownKey
  nonce : p'.nonce = p.nonce
  heard : ∀ h, p.peer = some h → p'.peer = some h
  silent : p'.phase = .waiting ∨ p'.phase = .greeting → p'.peer = none
  out : ∀ tag, .confirm (some tag) ∈ out → ∃ h, p'.peer = some h ∧ tag = p'.ourTag h
  done : ∀ peer, p'.phase = .done (.ok peer) → ∃ h, p'.peer = some h ∧
    peer = ⟨deviceIdOf h.publicKey, h.publicKey, h.name⟩ ∧ Makes known sent (p'.expectedPeerTag h)

theorem Kept.moves (k : s.Kept deviceIdOf known) {i : Nat} {p p' : PairParty K}
    {out : List (PairMsg K)} (found : s.sessions[i]? = some p)
    (m : Moves deviceIdOf known s.sent p p' out) :
    Kept deviceIdOf known ⟨s.sessions.set i p', s.sent ++ out.map (i, ·)⟩ := by
  have inside := (List.getElem?_eq_some_iff.mp found).1
  refine ⟨fun j q there => ?_, fun j q there => ?_, fun j tag member => ?_,
    fun j q peer there finished => ?_⟩
  · obtain ⟨rfl, rfl⟩ | ⟨-, there⟩ := Slots.getElem?_set_cases there
    · exact m.nonce.trans (k.nonce _ p found)
    · exact k.nonce j q there
  · obtain ⟨rfl, rfl⟩ | ⟨-, there⟩ := Slots.getElem?_set_cases there
    · exact m.silent
    · exact k.silent j q there
  · obtain old | new := List.mem_append.mp member
    · obtain ⟨q, h, there, heard, rfl⟩ := k.sent j tag old
      by_cases same : j = i
      · subst same
        obtain rfl := Option.some.inj (there.symm.trans found)
        exact ⟨p', h, List.getElem?_set_self inside, m.heard h heard,
          (ourTag_congr m.secret m.own m.nonce h).1.symm⟩
      · exact ⟨q, h, (List.getElem?_set_ne (Ne.symm same)).trans there, heard, rfl⟩
    · obtain ⟨msg, listed, eq⟩ := List.mem_map.mp new
      cases eq
      obtain ⟨h, heard, eq⟩ := m.out tag listed
      exact ⟨p', h, List.getElem?_set_self inside, heard, eq⟩
  · obtain ⟨rfl, rfl⟩ | ⟨-, there⟩ := Slots.getElem?_set_cases there
    · obtain ⟨h, heard, eq, makes⟩ := m.done peer finished
      exact ⟨h, heard, eq, makes.mono⟩
    · obtain ⟨h, heard, eq, makes⟩ := k.done j q peer there finished
      exact ⟨h, heard, eq, makes.mono⟩

theorem moves_fails (sent : List (Nat × PairMsg K)) (p : PairParty K) (e : PairError) :
    Moves deviceIdOf known sent p (p.fails e).1 (p.fails e).2 where
  secret := rfl
  own := rfl
  nonce := rfl
  heard _ heard := heard
  silent := by rintro (phase | phase) <;> cases phase
  out _ := nofun
  done _ := nofun

theorem Kept.moves_receive (k : s.Kept deviceIdOf known) {i : Nat} {p : PairParty K}
    (found : s.sessions[i]? = some p) {frame : PairFrame K}
    (sends : s.Sends known (.deliver i frame)) :
    Moves deviceIdOf known s.sent p (p.receive deviceIdOf frame).1
      (p.receive deviceIdOf frame).2 := by
  have cases_ := p.receive_cases deviceIdOf frame
  generalize p.receive deviceIdOf frame = out at cases_
  cases cases_ with
  | keeps => exact ⟨rfl, rfl, rfl, fun _ h => h, k.silent i p found, fun _ => nofun,
      fun peer finished => k.done i p peer found finished⟩
  | fails e => exact moves_fails s.sent p e
  | joins phase =>
      refine ⟨rfl, rfl, rfl, fun _ h => h, fun _ => k.silent i p found (.inl phase),
        fun tag member => ?_, fun _ => nofun⟩
      cases List.mem_singleton.mp member
  | greets phase h v heard msg =>
      have none_ := k.silent i p found (.inr phase)
      refine ⟨rfl, rfl, rfl, fun h' heard' => ?_, ?_, fun tag member => ?_, fun _ => nofun⟩
      · rw [none_] at heard'
        cases heard'
      · rintro (phase | phase) <;> cases phase
      · cases List.mem_singleton.mp member
        exact ⟨h, rfl, rfl⟩
  | confirms phase h peer v heard msg =>
      refine ⟨rfl, rfl, rfl, fun _ h => h, ?_, fun _ => nofun, fun _ finished => ?_⟩
      · rintro (phase | phase) <;> cases phase
      · cases finished
        subst heard
        obtain ⟨peerField, error, payload⟩ := v
        cases msg
        exact ⟨h, peer, rfl, sends⟩

theorem Kept.step (k : s.Kept deviceIdOf known) {l : PairNetLabel K} (sends : s.Sends known l)
    (stepped : s.step deviceIdOf l = some s') : s'.Kept deviceIdOf known := by
  cases l with
  | start code key name =>
      obtain ⟨split, -, rfl⟩ := Option.map_eq_some_iff.mp stepped
      refine ⟨fun j q there => ?_, fun j q there => ?_, fun j tag member => ?_,
        fun j q peer there finished => ?_⟩
      · obtain there | ⟨rfl, rfl⟩ := Slots.getElem?_concat_cases there
        · exact k.nonce j q there
        · rfl
      · obtain there | ⟨rfl, rfl⟩ := Slots.getElem?_concat_cases there
        · exact k.silent j q there
        · exact fun _ => rfl
      · obtain ⟨q, h, there, heard, eq⟩ := k.sent j tag member
        refine ⟨q, h, ?_, heard, eq⟩
        exact (List.getElem?_append_left (List.getElem?_eq_some_iff.mp there).1).trans there
      · obtain there | ⟨rfl, rfl⟩ := Slots.getElem?_concat_cases there
        · exact k.done j q peer there finished
        · cases finished
  | deliver i frame =>
      obtain ⟨p, found, rfl⟩ := Option.map_eq_some_iff.mp stepped
      exact k.moves found (k.moves_receive found sends)
  | fail i =>
      obtain ⟨p, found, stepped⟩ := Option.bind_eq_some_iff.mp stepped
      split at stepped
      · cases stepped
      · cases stepped
        have moved := k.moves found (moves_fails s.sent p .badFrame)
        rw [PairParty.fails, List.map_nil, List.append_nil] at moved
        exact moved

theorem kept (run : (machine deviceIdOf).ReachableBy (Sends known) s) : s.Kept deviceIdOf known := by
  refine run.invariant (I := Kept deviceIdOf known) ?_ ?_
  · rintro s rfl
    exact kept_start
  · exact fun s l s' k sends stepped => k.step sends stepped

/-- No party is sent a tag of its own role for the one it expects. -/
theorem ourTag_ne (p : PairParty K) (h : PeerHello K) : p.ourTag h ≠ p.expectedPeerTag h :=
  fun same => roleLabels_ne _ _ (PairTag.confirmation.inj same).2

/-- A tag that a party has sent and another expects of its peer: the two have each other's messages
and keys. -/
theorem Kept.partners (k : s.Kept deviceIdOf known) {i j : Nat} {p q : PairParty K}
    {h h' : PeerHello K} (found : s.sessions[i]? = some p) (there : s.sessions[j]? = some q)
    (heard : p.peer = some h) (heard' : q.peer = some h')
    (same : q.ourTag h' = p.expectedPeerTag h) :
    q.secret = p.secret ∧ q.ownKey = h.publicKey ∧ h'.publicKey = p.ownKey ∧
      h.message = q.element ∧ h'.message = p.element ∧ q.element ≠ p.element := by
  obtain ⟨ikm, own, ours⟩ := confirmation_eq same
  obtain ⟨secret, messages⟩ := PakeOutput.mk.inj ikm
  have other : q.element ≠ p.element := by
    intro same'
    have nonce := (Element.spake.inj same').2
    rw [k.nonce j q there, k.nonce i p found] at nonce
    obtain rfl := Nonce.session.inj nonce
    obtain rfl := Option.some.inj (there.symm.trans found)
    obtain rfl := Option.some.inj (heard'.symm.trans heard)
    exact ourTag_ne q h' same
  obtain ⟨same', -⟩ | ⟨theirs, mine⟩ := Sym2.eq_iff.mp messages
  · exact absurd same' other
  · exact ⟨secret, own, ours, theirs.symm, mine, other⟩

/-- A call that returns a peer has been confirmed by a party that knows the secret, in the opposite
role and for just the two keys; and neither its own message nor a tag of its own has done that. -/
theorem pair_authenticated (run : (machine deviceIdOf).ReachableBy (Sends known) s) {i : Nat}
    {p : PairParty K} {peer : PairedPeer K} (found : s.sessions[i]? = some p)
    (ok : p.phase = .done (.ok peer)) :
    ∃ h, p.peer = some h ∧ peer = ⟨deviceIdOf h.publicKey, h.publicKey, h.name⟩ ∧
      s.Partner known p h ∧ h.message ≠ p.element ∧
        ∀ tag, (i, .confirm (some tag)) ∈ s.sent → tag ≠ p.expectedPeerTag h := by
  have k := kept run
  obtain ⟨h, heard, eq, makes⟩ := k.done i p peer found ok
  have reflected : ∀ tag, (i, .confirm (some tag)) ∈ s.sent → tag ≠ p.expectedPeerTag h := by
    intro tag member
    obtain ⟨q, h', there, heard', rfl⟩ := k.sent i tag member
    obtain rfl := Option.some.inj (there.symm.trans found)
    obtain rfl := Option.some.inj (heard'.symm.trans heard)
    exact ourTag_ne q h'
  generalize expected : p.expectedPeerTag h = tag at makes
  cases makes with
  | heard j _ member =>
      obtain ⟨q, h', there, heard', same⟩ := k.sent j tag member
      obtain ⟨secret, own, ours, theirs, mine, other⟩ :=
        k.partners found there heard heard' (same.symm.trans expected.symm)
      refine ⟨h, heard, eq, .honest j q h' there secret own heard' ours theirs mine ?_
        (same ▸ member), theirs ▸ other, reflected⟩
      have roles := (PairTag.confirmation.inj (same.symm.trans expected.symm)).2
      rw [ours, ← own] at roles
      exact roles
  | derived key role knows =>
      obtain ⟨rfl, rfl⟩ := PairTag.confirmation.inj expected
      obtain ⟨secret, n, member⟩ := knows
      obtain mine | theirs := Sym2.mem_iff.mp member
      · have nonce := (Element.spake.inj mine).2
        rw [k.nonce i p found] at nonce
        cases nonce
      · refine ⟨h, heard, eq, .attacker secret n theirs.symm, ?_, reflected⟩
        rw [← theirs]
        intro same
        have nonce := (Element.spake.inj same).2
        rw [k.nonce i p found] at nonce
        cases nonce
  | bytes content => cases expected

/-- The relay only passes on tags that it has heard. -/
def Relays (s : PairNetwork K) : PairNetLabel K → Bool
  | .deliver _ (.text (some { payload := some (some (.confirm (some tag))), .. })) =>
    s.sent.any fun e => match e.2 with
      | .confirm (some heard) => decide (heard = tag)
      | _ => false
  | _ => true

theorem Relays.sends {l : PairNetLabel K} (h : s.Relays l = true) : s.Sends known l := by
  unfold Sends
  split
  · obtain ⟨⟨j, msg⟩, member, same⟩ := List.any_eq_true.mp h
    split at same
    · rename_i heard msg
      simp only at msg
      exact .heard j _ (of_decide_eq_true same ▸ msg ▸ member)
    · cases same
  · trivial

def relayJoined : PairFrame Nat := .text (some { peer := some "joined" })

/-- Two calls of one code, whose devices have keys 3 and 5. -/
def meeting : List (PairNetLabel Nat) :=
  let a : PairParty Nat := ⟨"mullet", 3, "desk", .session 0, none, .waiting⟩
  let b : PairParty Nat := ⟨"mullet", 5, "phone", .session 1, none, .waiting⟩
  [.start "7-mullet" 3 "desk", .start "7-mullet" 5 "phone",
    .deliver 0 relayJoined, .deliver 1 relayJoined,
    .deliver 0 (.payload b.hello), .deliver 1 (.payload a.hello),
    .deliver 0 (.payload (.confirm (some (b.ourTag ⟨a.element, 3, "desk"⟩))))]

theorem pair_authenticated_meeting : ∃ (s : PairNetwork Nat) (p : PairParty Nat) (h : PeerHello Nat),
    (machine toString).ReachableBy (Sends fun _ => False) s ∧ s.sessions[0]? = some p ∧
      p.phase = .done (.ok ⟨"5", 5, "phone"⟩) ∧ s.Partner (fun _ => False) p h := by
  obtain ⟨s, run, finished⟩ := Machine.exists_reachableBy_of (machine toString)
    (fun (s : PairNetwork Nat) l => s.Relays l = true)
    (s := ⟨[], []⟩) rfl meeting (fun _ _ _ relays => Relays.sends relays)
    (fun s => s.sessions[0]?.any fun p => match p.phase with
      | .done r => decide (r.toOption = some ⟨"5", 5, "phone"⟩)
      | _ => false) (by decide)
  obtain ⟨p, found, finished⟩ := (Option.any_eq_true _ _).mp finished
  split at finished
  · rename_i r phase
    have peer := of_decide_eq_true finished
    cases r with
    | error e => cases peer
    | ok peer_ =>
        obtain rfl := Option.some.inj peer
        obtain ⟨h, -, -, partner, -⟩ := pair_authenticated run found phase
        exact ⟨s, p, h, run, found, phase, partner⟩
  · cases finished

end PairNetwork
end ReachMyDevice
