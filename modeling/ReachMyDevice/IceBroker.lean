import Mathlib.Logic.Function.Basic
import ReachMyDevice.CredentialLifecycle
import ReachMyDevice.IceServers

/-!
# Relay credentials for those who ask

`ice_servers` looks a bearer token up, asks whether its owner may use the relay,
and hands out a credential that it keeps for the owner while it lives. The lock of
the kept credentials is taken twice, and between any two steps of a call others
run.
-/
namespace ReachMyDevice
open Machines Histories

inductive IceStage
  | arrived
  /-- The token is not that of a session. -/
  | resolving (token : String)
  | owned (userId : Int)
  /-- The owner may use the relay. -/
  | granted (userId : Int)
  /-- No credential that lives was found, at a time. -/
  | minting (userId : Int) (now : Int64)
  /-- The servers, and why a relay is withheld. -/
  | answered (servers : List IceServer) (denied : Option String)
  | refused (e : AppError)
  /-- The client has gone away. -/
  | aborted
  deriving DecidableEq

/-- The call waits for something, and is dropped with its connection. -/
def IceStage.waits : IceStage → Bool
  | .arrived | .resolving _ | .owned _ => true
  | .granted _ | .minting .. | .answered .. | .refused _ | .aborted => false

structure IceCall where
  authorization : Option String
  query : Option String
  stage : IceStage
  deriving DecidableEq

/-- `ice_cache`, by the user. -/
abbrev IceCache := Int → Option TurnCredential

namespace IceCache
variable (cache : IceCache) (userId : Int) (now : Int64)

/-- The credential that is kept for a user, while more than a minute is left. -/
def reusable : Option TurnCredential := (cache userId).filter fun c => now + 60 < c.expiry

/-- What has expired is thrown out. -/
def store (c : TurnCredential) : IceCache :=
  Function.update (fun u => (cache u).filter fun c => now < c.expiry) userId (some c)

@[simp] theorem store_self (c : TurnCredential) : cache.store userId now c userId = some c :=
  Function.update_self ..

theorem store_of_ne {u : Int} (other : u ≠ userId) (c : TurnCredential) :
    cache.store userId now c u = (cache u).filter fun c => now < c.expiry :=
  Function.update_of_ne other ..

end IceCache

/-- The service. Its tables come with what has become of the tokens. -/
structure IceBroker where
  creds : CredentialServer × List CredentialEvent
  cache : IceCache
  calls : List IceCall

inductive IceAct
  | lookUp (ok : Bool) (now : Int64)
  | entitle (decision : RelayDecision)
  /-- The clock is read, and the lock is taken for the first time. -/
  | read (now : Int64)
  | store
  | abort
  deriving DecidableEq

inductive IceLabel
  | creds (l : CredentialLabel)
  | arrive (authorization query : Option String)
  | call (i : Nat) (a : IceAct)

namespace CredentialServer
variable (hashToken : String → String) (s : CredentialServer)

/-- Past the lookup of a session. -/
def iceUnsigned (authorization query : Option String) : IceStage :=
  match requestToken authorization query with
  | some token => .resolving token
  | none => .refused .unauthorized

def iceLookUp (authorization query : Option String) : IceStage → Bool → Int64 → Option IceStage
  | .arrived, ok, now =>
    match bearerToken authorization with
    | none => some (iceUnsigned authorization query)
    | some token =>
      if ok then
        match s.userIdForSession hashToken token now with
        | some userId => some (.owned userId)
        | none => some (iceUnsigned authorization query)
      else some (.refused .db)
  | .resolving token, ok, now =>
    -- the resolver takes an error of the database for an unknown token
    match s.resolve hashToken token now, ok with
    | some cred, true => some (.owned cred.userId)
    | _, _ => some (.refused .unauthorized)
  | _, _, _ => none

end CredentialServer

namespace TurnConfig

/-- What an owner gets who may use the relay. -/
def relayed (turn : TurnConfig) (c : TurnCredential) : IceStage :=
  .answered [turn.stunServer, turn.turnServer c] none

end TurnConfig

namespace IceBroker
variable (crypto : Crypto) (generateToken : Nat → String) (hashToken : String → String)
  (tokenTtlSecs : Option UInt64) (hmac : Bytes → Bytes → Bytes) (config : Option TurnConfig)
  (s : IceBroker)

def entitled (decision : RelayDecision) (userId : Int) : IceStage :=
  match config with
  | none => .answered [publicStun] none
  | some turn =>
    if decision.allowed then .granted userId else .answered [turn.stunServer] decision.reason

/-- What becomes of a call, and of the kept credentials. -/
def act (c : IceCall) : IceAct → Option (IceStage × IceCache)
  | .lookUp ok now => (s.creds.1.iceLookUp hashToken c.authorization c.query c.stage ok now).map
      fun stage => (stage, s.cache)
  | .entitle decision =>
    match c.stage with
    | .owned userId => some (entitled config decision userId, s.cache)
    | _ => none
  | .read now =>
    match c.stage, config with
    | .granted userId, some turn =>
      match s.cache.reusable userId now with
      | some c => some (turn.relayed c, s.cache)
      | none => some (.minting userId now, s.cache)
    | _, _ => none
  | .store =>
    match c.stage, config with
    | .minting userId now, some turn =>
      let c := turn.mint hmac userId now
      some (turn.relayed c, s.cache.store userId now c)
    | _, _ => none
  | .abort => if c.stage.waits then some (.aborted, s.cache) else none

def step : IceLabel → Option IceBroker
  | .creds l =>
    ((CredentialServer.recorded crypto generateToken hashToken tokenTtlSecs).step s.creds l).map
      fun creds => { s with creds }
  | .arrive authorization query =>
    some { s with calls := s.calls ++ [⟨authorization, query, .arrived⟩] }
  | .call i a => s.calls[i]?.bind fun c =>
    (s.act hashToken hmac config c a).map fun (stage, cache) =>
      { s with calls := s.calls.set i { c with stage }, cache }

def machine : Machine IceBroker IceLabel where
  init s := s = ⟨(⟨⟨⟨[], []⟩, [], 0⟩, []⟩, []), fun _ => none, []⟩
  step s l := s.step crypto generateToken hashToken tokenTtlSecs hmac config l

/-- No device is created under an id that another request holds, and texts that are presented do not
collide with tokens that were drawn. -/
def Unreused : IceLabel → Prop
  | .creds l => s.creds.1.Unreused generateToken hashToken l
  | .call i (.lookUp ..) => ∀ c ∈ s.calls[i]?, ∀ token,
      bearerToken c.authorization = some token ∨ requestToken c.authorization c.query = some token →
        s.creds.1.Collisionless generateToken hashToken token
  | _ => True

end IceBroker

/-- What a call was served by: the time and what had become of the tokens at its last lookup, the
decision of the policy, and the time of its credential. -/
structure IceServing where
  lookedUp : Option (Int64 × List CredentialEvent)
  decision : Option RelayDecision
  clock : Option Int64

namespace IceServing
variable (r : IceServing) (hmac : Bytes → Bytes → Bytes) (config : Option TurnConfig)
  (authorization query : Option String) (userId : Int)

def note (history : List CredentialEvent) : IceAct → IceServing
  | .lookUp _ now => { r with lookedUp := some (now, history) }
  | .entitle decision => { r with decision := some decision }
  | .read now => { r with clock := some now }
  | .store | .abort => r

/-- A token that was presented was good, when it was looked up, for a session or for a device of
the user. -/
def Owns : Prop :=
  ∃ now history, r.lookedUp = some (now, history) ∧
    ((∃ token, bearerToken authorization = some token ∧ Live history now token (.session userId)) ∨
      ∃ token deviceId, requestToken authorization query = some token ∧
        Live history now token (.device userId deviceId))

/-- A credential that was minted for the owner of the token, who may use the relay; it is new, or
has more than a minute left. -/
def Relays (server : IceServer) : Prop :=
  ∃ turn userId at_ now, config = some turn ∧
    server = turn.turnServer (turn.mint hmac userId at_) ∧
    r.Owns authorization query userId ∧ r.decision = some .allow ∧ r.clock = some now ∧
    (at_ = now ∨ now + 60 < (turn.mint hmac userId at_).expiry)

end IceServing

abbrev IceRecord := Nat → IceServing

namespace IceRecord

def empty : IceRecord := fun _ => ⟨none, none, none⟩

def note (r : IceRecord) (history : List CredentialEvent) : IceLabel → IceRecord
  | .call i a => Function.update r i ((r i).note history a)
  | .creds _ | .arrive .. => r

end IceRecord

namespace IceBroker
variable (crypto : Crypto) (generateToken : Nat → String) (hashToken : String → String)
  (tokenTtlSecs : Option UInt64) (hmac : Bytes → Bytes → Bytes) (config : Option TurnConfig)

/-- The service beside a record of what its calls were served by. -/
def served : Machine (IceBroker × IceRecord) IceLabel :=
  (machine crypto generateToken hashToken tokenTtlSecs hmac config).recording
    (fun _ => .empty) fun s l _ r => r.note s.creds.2 l

/-- Every credential that is kept was minted for its user. -/
def Minted (cache : IceCache) : Prop :=
  ∀ userId c, cache userId = some c →
    ∃ turn at_, config = some turn ∧ c = turn.mint hmac userId at_

/-- What is known of a call by its stage. -/
def StageSound (r : IceServing) (authorization query : Option String) : IceStage → Prop
  | .resolving token => requestToken authorization query = some token
  | .owned userId => r.Owns authorization query userId
  | .granted userId => r.Owns authorization query userId ∧ r.decision = some .allow
  | .minting userId now =>
    r.Owns authorization query userId ∧ r.decision = some .allow ∧ r.clock = some now
  | .answered servers denied =>
    (∀ server ∈ servers, server.username = none ∧ server.credential = none ∨
      denied = none ∧ r.Relays hmac config authorization query server)
  | .arrived | .refused _ | .aborted => True

structure Kept (s : IceBroker) (r : IceRecord) : Prop where
  creds : s.creds.1.Kept generateToken hashToken s.creds.2
  minted : Minted hmac config s.cache
  calls : ∀ i c, s.calls[i]? = some c →
    StageSound hmac config (r i) c.authorization c.query c.stage

variable {crypto generateToken hashToken tokenTtlSecs hmac config} {s : IceBroker}
  {r : IceServing} {authorization query : Option String} {userId : Int} {cache : IceCache}

/-! ## The kept credentials -/

theorem Minted.filter (h : Minted hmac config cache) (p : TurnCredential → Bool) :
    Minted hmac config fun u => (cache u).filter p := by
  intro userId c kept
  exact h userId c (Option.eq_some_of_filter_eq_some kept)

theorem Minted.store {turn : TurnConfig} (h : Minted hmac (some turn) cache) (userId : Int)
    (now at_ : Int64) :
    Minted hmac (some turn) (cache.store userId now (turn.mint hmac userId at_)) := by
  intro u c kept
  by_cases same : u = userId
  · subst same
    rw [IceCache.store_self] at kept
    exact ⟨turn, at_, rfl, (Option.some.inj kept).symm⟩
  · rw [cache.store_of_ne userId now same] at kept
    exact h.filter _ u c kept

theorem Minted.reusable (h : Minted hmac config cache) {now : Int64} {c : TurnCredential}
    (found : cache.reusable userId now = some c) :
    (∃ turn at_, config = some turn ∧ c = turn.mint hmac userId at_) ∧ now + 60 < c.expiry := by
  obtain ⟨kept, lives⟩ := Option.filter_eq_some_iff.mp found
  exact ⟨h userId c kept, of_decide_eq_true lives⟩

/-! ## One step of a call -/

theorem requestToken_unsigned :
    StageSound hmac config r authorization query
      (CredentialServer.iceUnsigned authorization query) := by
  rw [CredentialServer.iceUnsigned]
  cases presented : requestToken authorization query with
  | none => exact trivial
  | some token => exact presented

/-- A lookup finds the owner of the token. -/
theorem stageSound_lookUp {creds : CredentialServer × List CredentialEvent}
    (kept : creds.1.Kept generateToken hashToken creds.2)
    (clear : ∀ token,
      bearerToken authorization = some token ∨ requestToken authorization query = some token →
        creds.1.Collisionless generateToken hashToken token)
    {stage stage' : IceStage} {ok : Bool} {now : Int64}
    (before : StageSound hmac config r authorization query stage)
    (moved : creds.1.iceLookUp hashToken authorization query stage ok now = some stage') :
    StageSound hmac config (r.note creds.2 (.lookUp ok now)) authorization query stage' := by
  unfold CredentialServer.iceLookUp at moved
  split at moved
  · split at moved
    · rw [← Option.some.inj moved]
      exact requestToken_unsigned
    · rename_i token presented
      split at moved
      · split at moved
        · rename_i userId session
          rw [← Option.some.inj moved]
          refine ⟨now, creds.2, rfl, .inl ⟨token, presented, ?_⟩⟩
          exact (kept.userIdForSession_iff (clear token (.inl presented)) now userId).mp session
        · rw [← Option.some.inj moved]
          exact requestToken_unsigned
      · rw [← Option.some.inj moved]
        exact trivial
  · rename_i token
    split at moved
    · rename_i cred resolves
      rw [← Option.some.inj moved]
      refine ⟨now, creds.2, rfl, .inr ⟨token, cred.signalingId, before, ?_⟩⟩
      exact (kept.resolve_iff (clear token (.inr before)) now cred.userId cred.signalingId).mp resolves
    · rw [← Option.some.inj moved]
      exact trivial
  · cases moved

theorem stageSound_entitled {history : List CredentialEvent} (decision : RelayDecision)
    (owned : r.Owns authorization query userId) :
    StageSound hmac config (r.note history (.entitle decision)) authorization query
      (entitled config decision userId) := by
  unfold entitled
  split
  · intro server member
    rw [List.mem_singleton.mp member]
    exact .inl ⟨rfl, rfl⟩
  · split
    · rename_i allowed
      cases decision with
      | allow => exact ⟨owned, rfl⟩
      | denyNoSubscription => cases allowed
      | denyFairUse => cases allowed
      | denyConcurrencyLimit => cases allowed
    · intro server member
      rw [List.mem_singleton.mp member]
      exact .inl ⟨rfl, rfl⟩

theorem stageSound_relayed {turn : TurnConfig} {c : TurnCredential}
    (relays : r.Relays hmac (some turn) authorization query (turn.turnServer c)) :
    StageSound hmac (some turn) r authorization query (turn.relayed c) := by
  intro server member
  rcases List.mem_cons.mp member with stun | member
  · rw [stun]
    exact .inl ⟨rfl, rfl⟩
  · rw [List.mem_singleton.mp member]
    exact .inr ⟨rfl, relays⟩

/-- A step keeps what is known of the call and of the kept credentials. -/
theorem act_sound (kept : s.creds.1.Kept generateToken hashToken s.creds.2)
    (minted : Minted hmac config s.cache) {i : Nat} {c : IceCall} (called : s.calls[i]? = some c)
    (before : StageSound hmac config r c.authorization c.query c.stage) {a : IceAct}
    (met : s.Unreused generateToken hashToken (.call i a)) {stage : IceStage} {cache : IceCache}
    (moved : s.act hashToken hmac config c a = some (stage, cache)) :
    Minted hmac config cache ∧
      StageSound hmac config (r.note s.creds.2 a) c.authorization c.query stage := by
  cases a with
  | lookUp ok now =>
      obtain ⟨stage', found, same⟩ := Option.map_eq_some_iff.mp moved
      obtain ⟨rfl, rfl⟩ := Prod.mk.inj same
      exact ⟨minted, stageSound_lookUp kept (met c called) before found⟩
  | entitle decision =>
      simp only [act] at moved
      split at moved
      · rename_i userId at_
        obtain ⟨rfl, rfl⟩ := Prod.mk.inj (Option.some.inj moved)
        rw [at_] at before
        exact ⟨minted, stageSound_entitled decision before⟩
      · cases moved
  | read now =>
      simp only [act] at moved
      split at moved
      · rename_i userId turn at_
        rw [at_] at before
        obtain ⟨owned, allowed⟩ := before
        split at moved
        · rename_i c' found
          obtain ⟨rfl, rfl⟩ := Prod.mk.inj (Option.some.inj moved)
          obtain ⟨⟨turn', at', given, rfl⟩, lives⟩ := minted.reusable found
          obtain rfl := Option.some.inj given
          refine ⟨minted, stageSound_relayed ?_⟩
          exact ⟨turn, userId, at', now, rfl, rfl, owned, allowed, rfl, .inr lives⟩
        · obtain ⟨rfl, rfl⟩ := Prod.mk.inj (Option.some.inj moved)
          exact ⟨minted, owned, allowed, rfl⟩
      · cases moved
  | store =>
      simp only [act] at moved
      split at moved
      · rename_i userId now turn at_
        obtain ⟨rfl, rfl⟩ := Prod.mk.inj (Option.some.inj moved)
        rw [at_] at before
        obtain ⟨owned, allowed, time⟩ := before
        refine ⟨minted.store userId now now, stageSound_relayed ?_⟩
        exact ⟨turn, userId, now, now, rfl, rfl, owned, allowed, time, .inl rfl⟩
      · cases moved
  | abort =>
      obtain ⟨-, moved⟩ := Option.ite_none_right_eq_some.mp moved
      obtain ⟨rfl, rfl⟩ := Prod.mk.inj (Option.some.inj moved)
      exact ⟨minted, trivial⟩

/-! ## A whole run -/

theorem kept_of_served {s : IceBroker × IceRecord}
    (run : (served crypto generateToken hashToken tokenTtlSecs hmac config).ReachableBy
      (fun s => s.1.Unreused generateToken hashToken) s) :
    TokenHistory.Distinct generateToken hashToken s.1.creds.1.tokens.generated →
      Kept generateToken hashToken hmac config s.1 s.2 := by
  refine run.invariant (I := fun s =>
    TokenHistory.Distinct generateToken hashToken s.1.creds.1.tokens.generated →
      Kept generateToken hashToken hmac config s.1 s.2) ?_ ?_
  · rintro s ⟨first, noted⟩ -
    rw [first]
    refine ⟨CredentialServer.kept_nil, nofun, ?_⟩
    intro i c called
    cases called
  · intro s l s' h met step distinct
    obtain ⟨taken, noted⟩ := Machine.recording_step_iff.mp step
    rw [noted]
    cases l with
    | creds l =>
        obtain ⟨creds, moved, same⟩ := Option.map_eq_some_iff.mp taken
        rw [← same] at distinct ⊢
        obtain ⟨issues, told⟩ := Machine.recording_step_iff.mp moved
        obtain ⟨le, next⟩ := CredentialServer.Kept.step issues met
        have h := h (distinct.earlier le)
        refine ⟨?_, h.minted, h.calls⟩
        show creds.1.Kept generateToken hashToken creds.2
        rw [told]
        exact next distinct h.creds
    | arrive authorization query =>
        rw [← Option.some.inj taken] at distinct ⊢
        have h := h distinct
        refine ⟨h.creds, h.minted, ?_⟩
        intro i c called
        rcases Slots.getElem?_concat_cases called with old | ⟨-, new⟩
        · exact h.calls i c old
        · rw [new]
          exact trivial
    | call i a =>
        obtain ⟨c, called, moved⟩ := Option.bind_eq_some_iff.mp taken
        obtain ⟨⟨stage, cache⟩, acted, same⟩ := Option.map_eq_some_iff.mp moved
        rw [← same] at distinct ⊢
        have h := h distinct
        obtain ⟨minted, sound⟩ :=
          act_sound h.creds h.minted called (h.calls i c called) met acted
        refine ⟨h.creds, minted, ?_⟩
        intro j c' called'
        rcases Slots.getElem?_set_cases called' with ⟨here, new⟩ | ⟨other, old⟩
        · rw [here, new, IceRecord.note, Function.update_self]
          exact sound
        · rw [IceRecord.note, Function.update_of_ne other]
          exact h.calls j c' old

/-- While no device is created under an id that another request holds, and whatever else comes
between its steps, a call hands out a relay only to an owner who may use it and whose token was good
when it was looked up, with the owner's own credential, which is new or has more than a minute left.
A call that says why the relay is withheld hands out no credential. -/
theorem relays_for_owners (s : IceBroker × IceRecord)
    (run : (served crypto generateToken hashToken tokenTtlSecs hmac config).ReachableBy
      (fun s => s.1.Unreused generateToken hashToken) s)
    (distinct : TokenHistory.Distinct generateToken hashToken s.1.creds.1.tokens.generated)
    (i : Nat) (c : IceCall) (called : s.1.calls[i]? = some c) (servers : List IceServer)
    (denied : Option String) (answered : c.stage = .answered servers denied) :
    ∀ server ∈ servers, server.username = none ∧ server.credential = none ∨
      denied = none ∧ (s.2 i).Relays hmac config c.authorization c.query server := by
  have sound := (kept_of_served run distinct).calls i c called
  rw [answered] at sound
  exact sound

instance (s : IceBroker) : ∀ l, Decidable (s.Unreused TokenHistory.sampleToken id l)
  | .creds l => inferInstanceAs (Decidable (s.creds.1.Unreused TokenHistory.sampleToken id l))
  | .call _ (.lookUp ..) => .isTrue fun _ _ token _ =>
    CredentialServer.sample_collisionless s.creds.1 token
  | .arrive .. | .call _ (.entitle _) | .call _ (.read _) | .call _ .store | .call _ .abort =>
    .isTrue trivial

/-- A user signs in, asks for the servers, and is answered with a credential of its own. -/
theorem relays_for_owners_session : ∃ s c server,
    (served sampleCrypto TokenHistory.sampleToken id none (fun _ _ => [7])
      (some ⟨"secret", "relay.example", 3478, 600⟩)).Reachable s ∧
    s.1.calls[0]? = some c ∧ server.username = some "605:1" ∧
    (s.2 0).Relays (fun _ _ => [7]) (some ⟨"secret", "relay.example", 3478, 600⟩)
      c.authorization c.query server := by
  let turn : TurnConfig := ⟨"secret", "relay.example", 3478, 600⟩
  let server := turn.turnServer (turn.mint (fun _ _ => [7]) 1 5)
  obtain ⟨s, run, called⟩ := Machine.exists_reachableBy
    (served sampleCrypto TokenHistory.sampleToken id none (fun _ _ => [7]) (some turn))
    (fun s => s.1.Unreused TokenHistory.sampleToken id)
    (s := (⟨(⟨⟨⟨[], []⟩, [], 0⟩, []⟩, []), fun _ => none, []⟩, .empty)) ⟨rfl, rfl⟩
    [.creds (.login (.ok 1) true 0), .creds (.login (.ok 1) true 0),
      .arrive (some "Bearer f") none, .call 0 (.lookUp true 5), .call 0 (.entitle .allow),
      .call 0 (.read 5), .call 0 .store]
    (fun s => s.1.calls[0]? =
      some ⟨some "Bearer f", none, .answered [turn.stunServer, server] none⟩) (by decide +kernel)
  have relays := relays_for_owners s run (TokenHistory.sampleToken_distinct _) 0 _ called _ _ rfl
    server (by decide +kernel)
  refine ⟨s, _, server, run.mono fun _ _ _ => trivial, called, by decide, ?_⟩
  rcases relays with ⟨none_, -⟩ | ⟨-, relays⟩
  · cases none_
  · exact relays

end IceBroker
end ReachMyDevice
