import ReachMyDevice.IceBroker

/-!
# A host that keeps its relay

A host allocates its relay once. When the credential has expired, and no session
is active, it restarts in its place and asks again. The rendezvous keeps one
credential for all the calls of a user, and has a clock of its own.
-/
namespace ReachMyDevice
open Machines

inductive HostPhase
  /-- The ICE servers are being fetched. -/
  | booting
  /-- The rendezvous mints a credential for the call that fetches them. -/
  | minting (now : Int64)
  | starting (servers : List IceServer)
  /-- No relay with a credential: the thread has ended. -/
  | unwatched
  /-- The thread sleeps until a time. -/
  | watching (expiry started wake : Nat)
  deriving DecidableEq

/-- The clock is that of the host, in seconds. Calls of users are between the two locks of the kept
credentials, each with the time of the first. -/
structure RelayHost where
  clock : Nat
  cache : IceCache
  pending : List (Int × Int64)
  active : Bool
  phase : HostPhase

/-- How the fetch ends. -/
inductive IceFetch
  | relay
  /-- The relay is withheld. -/
  | stun
  /-- Nothing came before the deadline. -/
  | failed
  deriving DecidableEq

inductive RefreshLabel
  | tick (secs : Nat)
  | session (active : Bool)
  /-- A call of another peer, at its first lock. -/
  | serve (userId : Int)
  /-- A call at its second lock. -/
  | store (i : Nat)
  | fetch (how : IceFetch)
  /-- The host's own call, at its second lock. -/
  | fetched
  /-- The host's own call is given up, and goes on at the rendezvous. -/
  | lost
  | start
  | iterate
  /-- The process ends for another reason, and is started again. -/
  | relaunch
  deriving DecidableEq

def settleSecs : Nat := 30

def minRestartInterval : Nat := 600

inductive RefreshMove
  | sleep (secs : Nat)
  | restart
  deriving DecidableEq

/-- An iteration of the thread. -/
def refreshMove (expiry started now : Nat) (active : Bool) : RefreshMove :=
  let restartAt := min (expiry + settleSecs) (2 ^ 64 - 1)
  if now < restartAt then .sleep (min (restartAt - now) 3600)
  else if now - started < minRestartInterval then .sleep (minRestartInterval - (now - started))
  else if active then .sleep 30
  else .restart

namespace RelayHost
variable (hmac : Bytes → Bytes → Bytes) (turn : TurnConfig) (ahead : Int) (manual : String)
  (owner : Int) (s : RelayHost)

/-- The host's clock is ahead of that of the rendezvous, or behind it. -/
def brokerNow : Int64 := Int64.ofInt (s.clock - ahead)

/-- The first lock of `turn_creds_for` for a peer. -/
def serve (userId : Int) : RelayHost :=
  match s.cache.reusable userId (s.brokerNow ahead) with
  | some _ => s
  | none => { s with pending := s.pending ++ [(userId, s.brokerNow ahead)] }

/-- The second lock. -/
def minted (userId : Int) (now : Int64) : RelayHost :=
  { s with cache := s.cache.store userId now (turn.mint hmac userId now) }

def fetch : IceFetch → RelayHost
  | .relay =>
    match s.cache.reusable owner (s.brokerNow ahead) with
    | some c => { s with phase := .starting (turn.hostServers manual c) }
    | none => { s with phase := .minting (s.brokerNow ahead) }
  | .stun => { s with phase := .starting (manualIce manual ++ [turn.stunServer]) }
  | .failed => { s with phase := .starting (manualIce manual) }

/-- The host's call for a credential, if it waits for one. -/
def asked : List (Int × Int64) :=
  match s.phase with
  | .minting now => [(owner, now)]
  | _ => []

def start (servers : List IceServer) : RelayHost :=
  { s with
    active := false
    phase := (earliestTurnExpiry servers).elim .unwatched fun e =>
      .watching e.toNat s.clock s.clock }

def restart : RelayHost :=
  { s with pending := s.pending ++ s.asked owner, active := false, phase := .booting }

def iterate (expiry started : Nat) : RelayHost :=
  match refreshMove expiry started s.clock s.active with
  | .sleep secs => { s with phase := .watching expiry started (s.clock + secs) }
  | .restart => s.restart owner

def step : RefreshLabel → Option RelayHost
  | .tick secs => some { s with clock := s.clock + secs }
  | .session active =>
    match s.phase with
    | .unwatched | .watching .. => some { s with active }
    | .booting | .minting _ | .starting _ => none
  | .serve userId => some (s.serve ahead userId)
  | .store i => s.pending[i]?.map fun (userId, now) =>
    { s.minted hmac turn userId now with pending := s.pending.eraseIdx i }
  | .fetch how =>
    if s.phase = .booting then some (s.fetch turn ahead manual owner how) else none
  | .fetched =>
    match s.phase with
    | .minting now =>
      some { s.minted hmac turn owner now with
        phase := .starting (turn.hostServers manual (turn.mint hmac owner now)) }
    | _ => none
  | .lost =>
    match s.phase with
    | .minting now => some { s with pending := s.pending ++ [(owner, now)], phase := .booting }
    | _ => none
  | .start =>
    match s.phase with
    | .starting servers => some (s.start servers)
    | _ => none
  | .iterate =>
    match s.phase with
    | .watching expiry started wake =>
      if wake ≤ s.clock then some (s.iterate owner expiry started) else none
    | _ => none
  | .relaunch => some (s.restart owner)

def machine : Machine RelayHost RefreshLabel where
  init s := s.cache = (fun _ => none) ∧ s.pending = [] ∧ s.active = false ∧ s.phase = .booting
  step s l := s.step hmac turn ahead manual owner l

/-- The clock of the rendezvous is past its epoch, and no time overflows. -/
def InRange (turn : TurnConfig) (ahead : Int) (s : RelayHost) : Prop :=
  0 ≤ s.clock - ahead ∧ s.clock - ahead + max turn.ttlSecs.toNat 60 < 2 ^ 63

instance : Decidable (s.InRange turn ahead) := inferInstanceAs (Decidable (_ ∧ _))

end RelayHost

/-- A restart for a new credential. -/
structure RelayRestart where
  expiry : Nat
  started : Nat
  time : Nat
  active : Bool
  deriving DecidableEq

/-- A credential that is minted by a call: for whom, the time of its first lock, and that of the
credential that had been stored last for the user. -/
structure RelayMint where
  userId : Int
  now : Int64
  last : Option Int64
  deriving DecidableEq

/-- The restarts and the credentials that were minted, each with the last first, the times of those
that were stored last, and the last time at which a session was active. -/
structure RefreshRecord where
  restarts : List RelayRestart
  mints : List RelayMint
  stored : Int → Option Int64
  busy : Nat

namespace RefreshRecord
variable (r : RefreshRecord) (ahead : Int) (owner : Int)

/-- A call that finds no credential mints one. -/
def mintedFor (s : RelayHost) (userId : Int) : RefreshRecord :=
  if s.cache.reusable userId (s.brokerNow ahead) = none then
    { r with mints := ⟨userId, s.brokerNow ahead, r.stored userId⟩ :: r.mints }
  else r

def stores (userId : Int) (now : Int64) : RefreshRecord :=
  { r with stored := Function.update r.stored userId (some now) }

def seen (s' : RelayHost) : RefreshRecord :=
  { r with busy := if s'.active then s'.clock else r.busy }

def note (s : RelayHost) : RefreshLabel → RelayHost → RefreshRecord
  | .serve userId, _ => r.mintedFor ahead s userId
  | .store i, _ => (s.pending[i]?).elim r fun (userId, now) => r.stores userId now
  | .fetch .relay, _ => r.mintedFor ahead s owner
  | .fetched, _ =>
    match s.phase with
    | .minting now => r.stores owner now
    | _ => r
  | .iterate, s' =>
    match s.phase, s'.phase with
    | .watching expiry started _, .booting =>
      { r with restarts := ⟨expiry, started, s.clock, s.active⟩ :: r.restarts }
    | _, _ => r.seen s'
  | _, s' => r.seen s'

end RefreshRecord

namespace RelayHost
variable (hmac : Bytes → Bytes → Bytes) (turn : TurnConfig) (ahead : Int) (manual : String)
  (owner : Int)

def recorded : Machine (RelayHost × RefreshRecord) RefreshLabel :=
  (machine hmac turn ahead manual owner).recording (fun _ => ⟨[], [], fun _ => none, 0⟩)
    fun s l s' r => r.note ahead owner s l s'

end RelayHost
variable {hmac : Bytes → Bytes → Bytes} {turn : TurnConfig} {ahead : Int} {manual : String}
  {owner : Int}

namespace RelayHost
variable {s s' : RelayHost} {r : RefreshRecord}

theorem InRange.toInt_brokerNow (range : s.InRange turn ahead) :
    (s.brokerNow ahead).toInt = s.clock - ahead := by
  obtain ⟨low, high⟩ := range
  have positive : (0 : Int) ≤ max (turn.ttlSecs.toNat : Int) 60 := by omega
  apply Int64.toInt_ofInt_of_le
  · omega
  · omega

theorem toInt_add {a b : Int64} (low : 0 ≤ a.toInt + b.toInt) (high : a.toInt + b.toInt < 2 ^ 63) :
    (a + b).toInt = a.toInt + b.toInt := by
  rw [Int64.toInt_add]
  apply Int.bmod_eq_of_le
  · omega
  · omega

theorem toInt_ttl {ttl : UInt64} (small : ttl.toNat < 2 ^ 63) : ttl.toInt64.toInt = ttl.toNat := by
  have bits : ttl.toInt64.toInt = ttl.toBitVec.toInt := rfl
  have same : ttl.toBitVec.toNat = ttl.toNat := rfl
  rw [bits, BitVec.toInt_eq_toNat_of_lt (by omega), same]

variable (hmac) in
/-- A credential that is minted at a time past lasts from then. -/
theorem InRange.toInt_expiry (range : s.InRange turn ahead) {now : Int64}
    (past : 0 ≤ now.toInt ∧ now.toInt ≤ s.clock - ahead) (userId : Int) :
    (turn.mint hmac userId now).expiry.toInt = now.toInt + turn.ttlSecs.toNat := by
  obtain ⟨low, high⟩ := range
  obtain ⟨nonneg, before⟩ := past
  have ttl : turn.ttlSecs.toInt64.toInt = turn.ttlSecs.toNat := by
    apply toInt_ttl
    omega
  have sum : (now + turn.ttlSecs.toInt64).toInt = now.toInt + turn.ttlSecs.toInt64.toInt := by
    apply toInt_add
    · omega
    · omega
  rw [TurnConfig.mint, sum, ttl]

theorem InRange.reusable_iff (range : s.InRange turn ahead) (c : TurnCredential) :
    s.brokerNow ahead + 60 < c.expiry ↔ s.clock - ahead + 60 < c.expiry.toInt := by
  have now := range.toInt_brokerNow
  obtain ⟨low, high⟩ := range
  have minute : (60 : Int64).toInt = 60 := rfl
  have sum : (s.brokerNow ahead + 60).toInt = (s.brokerNow ahead).toInt + (60 : Int64).toInt := by
    apply toInt_add
    · omega
    · omega
  rw [Int64.lt_iff_toInt_lt, sum, now, minute]

/-- What a step does. -/
inductive Moved (hmac : Bytes → Bytes → Bytes) (turn : TurnConfig) (ahead : Int) (manual : String)
    (owner : Int) (s : RelayHost) : RefreshLabel → RelayHost → Prop
  | ticked (secs : Nat) :
      Moved hmac turn ahead manual owner s (.tick secs) { s with clock := s.clock + secs }
  | session (active : Bool)
      (started : s.phase = .unwatched ∨
        ∃ expiry started wake, s.phase = .watching expiry started wake) :
      Moved hmac turn ahead manual owner s (.session active) { s with active }
  | served (userId : Int) :
      Moved hmac turn ahead manual owner s (.serve userId) (s.serve ahead userId)
  | stored {i : Nat} {userId : Int} {now : Int64} (waits : s.pending[i]? = some (userId, now)) :
      Moved hmac turn ahead manual owner s (.store i)
        { s.minted hmac turn userId now with pending := s.pending.eraseIdx i }
  | fetches (how : IceFetch) (booting : s.phase = .booting) :
      Moved hmac turn ahead manual owner s (.fetch how) (s.fetch turn ahead manual owner how)
  | fetched {now : Int64} (asks : s.phase = .minting now) :
      Moved hmac turn ahead manual owner s .fetched { s.minted hmac turn owner now with
        phase := .starting (turn.hostServers manual (turn.mint hmac owner now)) }
  | lost {now : Int64} (asks : s.phase = .minting now) :
      Moved hmac turn ahead manual owner s .lost
        { s with pending := s.pending ++ [(owner, now)], phase := .booting }
  | starts {servers : List IceServer} (fetched : s.phase = .starting servers) :
      Moved hmac turn ahead manual owner s .start (s.start servers)
  | iterates {expiry started wake : Nat} (watching : s.phase = .watching expiry started wake)
      (awake : wake ≤ s.clock) :
      Moved hmac turn ahead manual owner s .iterate (s.iterate owner expiry started)
  | relaunched : Moved hmac turn ahead manual owner s .relaunch (s.restart owner)

theorem step_cases {l : RefreshLabel} (h : s.step hmac turn ahead manual owner l = some s') :
    Moved hmac turn ahead manual owner s l s' := by
  cases l with
  | tick secs =>
      cases h
      exact .ticked secs
  | session active =>
      simp only [RelayHost.step] at h
      split at h
      next unwatched =>
        cases h
        exact .session active (.inl unwatched)
      next watching =>
        cases h
        exact .session active (.inr ⟨_, _, _, watching⟩)
      next => cases h
      next => cases h
      next => cases h
  | serve userId =>
      cases h
      exact .served userId
  | store i =>
      obtain ⟨⟨userId, now⟩, waits, rfl⟩ := Option.map_eq_some_iff.mp h
      exact .stored waits
  | fetch how =>
      obtain ⟨booting, h⟩ := Option.ite_none_right_eq_some.mp h
      cases h
      exact .fetches how booting
  | fetched =>
      simp only [RelayHost.step] at h
      split at h
      next asks =>
        cases h
        exact .fetched asks
      next => cases h
  | lost =>
      simp only [RelayHost.step] at h
      split at h
      next asks =>
        cases h
        exact .lost asks
      next => cases h
  | start =>
      simp only [RelayHost.step] at h
      split at h
      next fetched =>
        cases h
        exact .starts fetched
      next => cases h
  | iterate =>
      simp only [RelayHost.step] at h
      split at h
      next watching =>
        obtain ⟨awake, h⟩ := Option.ite_none_right_eq_some.mp h
        cases h
        exact .iterates watching awake
      next => cases h
  | relaunch =>
      cases h
      exact .relaunched

/-! ## Calls between their locks -/

variable (ahead) in
theorem serve_eq (s : RelayHost) (userId : Int) :
    ∃ pending, s.serve ahead userId = { s with pending } := by
  unfold serve
  split
  · exact ⟨s.pending, rfl⟩
  · exact ⟨s.pending ++ [(userId, s.brokerNow ahead)], rfl⟩

variable (turn ahead manual owner) in
/-- The host's own call, at its first lock. -/
theorem fetch_relay_eq (s : RelayHost) : ∃ phase, (∀ expiry started wake,
      phase ≠ .watching expiry started wake) ∧
    s.fetch turn ahead manual owner .relay = { s with phase } := by
  rw [fetch]
  cases found : s.cache.reusable owner (s.brokerNow ahead) with
  | some c => exact ⟨.starting (turn.hostServers manual c), nofun, rfl⟩
  | none => exact ⟨.minting (s.brokerNow ahead), nofun, rfl⟩

/-- A call between its locks read the clock some time ago. -/
def Called (ahead owner : Int) (s : RelayHost) : Prop :=
  ∀ p ∈ s.pending ++ s.asked owner, 0 ≤ p.2.toInt ∧ p.2.toInt ≤ s.clock - ahead

theorem Called.of_old (h : Called ahead owner s) (range : s.InRange turn ahead)
    (later : s.clock ≤ s'.clock)
    (old : ∀ p ∈ s'.pending ++ s'.asked owner,
      p ∈ s.pending ++ s.asked owner ∨ p.2 = s.brokerNow ahead) : Called ahead owner s' := by
  intro p member
  rcases old p member with before | new
  · have past := h p before
    omega
  · have now := range.toInt_brokerNow
    obtain ⟨low, -⟩ := range
    rw [new, now]
    omega

/-- The calls that wait are the same, or fewer. -/
theorem Called.kept (h : Called ahead owner s) (later : s.clock ≤ s'.clock)
    (pending : s'.pending = s.pending)
    (phase : s'.phase = s.phase ∨ ∀ now, s'.phase ≠ .minting now) : Called ahead owner s' := by
  intro p member
  have before : p ∈ s.pending ++ s.asked owner := by
    rcases phase with same | other
    · rwa [asked, pending, same] at member
    · have none_ : s'.asked owner = [] := by
        unfold asked
        split
        · rename_i now at_
          exact absurd at_ (other now)
        · rfl
      rw [none_, List.append_nil, pending] at member
      exact List.mem_append_left _ member
  have past := h p before
  omega

theorem asked_minting {now : Int64} (at_ : s.phase = .minting now) :
    s.asked owner = [(owner, now)] := by
  rw [asked, at_]

/-- The host's own call read the clock some time ago. -/
theorem Called.own (h : Called ahead owner s) {now : Int64} (asks : s.phase = .minting now) :
    0 ≤ now.toInt ∧ now.toInt ≤ s.clock - ahead := by
  refine h (owner, now) (List.mem_append_right _ ?_)
  rw [asked_minting asks]
  exact List.mem_singleton_self _

theorem Called.restart (h : Called ahead owner s) : Called ahead owner (s.restart owner) := by
  intro p member
  have none_ : (s.restart owner).asked owner = [] := rfl
  rw [none_, List.append_nil] at member
  exact h p member

theorem Called.step (h : Called ahead owner s) (range : s.InRange turn ahead) {l : RefreshLabel}
    (moved : s.step hmac turn ahead manual owner l = some s') : Called ahead owner s' := by
  have did := step_cases moved
  cases did with
  | ticked secs => exact h.kept (Nat.le_add_right ..) rfl (.inl rfl)
  | session active => exact h.kept (Nat.le_refl _) rfl (.inl rfl)
  | served userId =>
      rw [serve]
      split
      · exact h
      · refine h.of_old range (Nat.le_refl _) fun p member => ?_
        rw [List.append_assoc] at member
        rcases List.mem_append.mp member with old | new
        · exact .inl (List.mem_append_left _ old)
        · rcases List.mem_append.mp new with own | waiting
          · exact .inr (by rw [List.mem_singleton.mp own])
          · exact .inl (List.mem_append_right _ waiting)
  | stored waits =>
      intro q member
      refine h q ?_
      rcases List.mem_append.mp member with old | waiting
      · exact List.mem_append_left _ (List.mem_of_mem_eraseIdx old)
      · exact List.mem_append_right _ waiting
  | fetches how booting =>
      cases how with
      | relay =>
          rw [fetch]
          split
          · exact h.kept (Nat.le_refl _) rfl (.inr nofun)
          · refine h.of_old range (Nat.le_refl _) fun p member => ?_
            rcases List.mem_append.mp member with old | own
            · exact .inl (List.mem_append_left _ old)
            · exact .inr (by rw [List.mem_singleton.mp own])
      | stun => exact h.kept (Nat.le_refl _) rfl (.inr nofun)
      | failed => exact h.kept (Nat.le_refl _) rfl (.inr nofun)
  | fetched asks => exact h.kept (Nat.le_refl _) rfl (.inr nofun)
  | lost asks =>
      intro p member
      rename_i now
      have none_ : asked owner { s with
          pending := s.pending ++ [(owner, now)]
          phase := .booting } = [] := rfl
      rw [none_, List.append_nil] at member
      exact h p (by rwa [asked_minting asks])
  | starts fetched =>
      refine h.kept (Nat.le_refl _) rfl (.inr fun now => ?_)
      rw [RelayHost.start]
      dsimp only
      cases earliestTurnExpiry _ with
      | none => exact nofun
      | some e => exact nofun
  | iterates watching awake =>
      rw [RelayHost.iterate]
      split
      · exact h.kept (Nat.le_refl _) rfl (.inr nofun)
      · exact h.restart
  | relaunched => exact h.restart

theorem called_of_booting (free : s.pending = []) (booting : s.phase = .booting) :
    Called ahead owner s := by
  intro p member
  rw [asked, booting, free] at member
  cases member

/-! ## The restarts of a run -/

/-- What is known of the thread, and of what it will be started with. -/
def PhaseKept (turn : TurnConfig) (r : RefreshRecord) (clock : Nat) : HostPhase → Prop
  | .minting now => ∀ x ∈ r.restarts, (x.expiry : Int) < now.toInt + turn.ttlSecs.toNat
  | .starting servers => ∀ e, earliestTurnExpiry servers = some e →
      e.toNat < 2 ^ 63 ∧ ∀ x ∈ r.restarts, x.expiry < e.toNat
  | .watching expiry started _ =>
    expiry < 2 ^ 63 ∧ started ≤ clock ∧ ∀ x ∈ r.restarts, x.time ≤ started ∧ x.expiry < expiry
  | .booting | .unwatched => True

structure RestartsKept (hmac : Bytes → Bytes → Bytes) (turn : TurnConfig) (s : RelayHost)
    (r : RefreshRecord) : Prop where
  minted : IceBroker.Minted hmac (some turn) s.cache
  sound : ∀ x ∈ r.restarts, x.active = false ∧ x.expiry + settleSecs ≤ x.time ∧
    x.started + minRestartInterval ≤ x.time ∧ x.time ≤ s.clock
  apart : r.restarts.Pairwise fun later earlier =>
    earlier.time ≤ later.started ∧ earlier.expiry < later.expiry
  phase : PhaseKept turn r s.clock s.phase

@[simp] theorem restarts_mintedFor (s : RelayHost) (userId : Int) :
    (r.mintedFor ahead s userId).restarts = r.restarts := by
  unfold RefreshRecord.mintedFor
  split <;> rfl

theorem PhaseKept.of_restarts {r r' : RefreshRecord} (same : r'.restarts = r.restarts)
    {clock : Nat} {phase : HostPhase} (h : PhaseKept turn r clock phase) :
    PhaseKept turn r' clock phase := by
  unfold PhaseKept at h ⊢
  rw [same]
  exact h

/-- The restarts stay as they are, and time may pass. -/
theorem RestartsKept.of_restarts {r' : RefreshRecord} (h : RestartsKept hmac turn s r)
    (same : r'.restarts = r.restarts) (later : s.clock ≤ s'.clock)
    (minted : IceBroker.Minted hmac (some turn) s'.cache)
    (phase : PhaseKept turn r s'.clock s'.phase) : RestartsKept hmac turn s' r' where
  minted := minted
  sound x member := by
    rw [same] at member
    obtain ⟨idle, expired, spaced, past⟩ := h.sound x member
    exact ⟨idle, expired, spaced, past.trans later⟩
  apart := same ▸ h.apart
  phase := phase.of_restarts same

theorem PhaseKept.later {clock clock' : Nat} (later : clock ≤ clock') {phase : HostPhase}
    (h : PhaseKept turn r clock phase) : PhaseKept turn r clock' phase := by
  cases phase with
  | watching expiry started wake => exact ⟨h.1, h.2.1.trans later, h.2.2⟩
  | starting servers => exact h
  | minting now => exact h
  | booting => exact trivial
  | unwatched => exact trivial

/-- A list in which no server has a user name gives no time. -/
theorem phaseKept_nameless {clock : Nat} {servers : List IceServer}
    (nameless : ∀ s ∈ servers, s.username = none) : PhaseKept turn r clock (.starting servers) := by
  intro e read
  have none_ := earliestTurnExpiry_append nameless []
  rw [List.append_nil, read] at none_
  cases none_

/-- A credential of a mint that outlives those of the restarts. -/
theorem phaseKept_starting {clock : Nat} {at_ : Int64} (longer : ∀ x ∈ r.restarts,
      (x.expiry : Int) < (turn.mint hmac owner at_).expiry.toInt) :
    PhaseKept turn r clock (.starting (turn.hostServers manual (turn.mint hmac owner at_))) := by
  intro e read
  rw [TurnConfig.earliestTurnExpiry_hostServers] at read
  obtain ⟨nonneg, same⟩ := Option.ite_none_right_eq_some.mp read
  have value : (e.toNat : Int) = (turn.mint hmac owner at_).expiry.toInt := by
    rw [← Option.some.inj same, Int64.toNat_toUInt64_of_le nonneg,
      Int64.cast_toNatClampNeg _ nonneg]
  refine ⟨?_, ?_⟩
  · have bound := (turn.mint hmac owner at_).expiry.toInt_lt
    omega
  · intro x member
    have less := longer x member
    omega

/-- A credential that is fetched after a restart outlives the one before the restart, unless the
host's clock is too far ahead. -/
theorem RestartsKept.fetch (slow : ahead ≤ 90) (lasts : ahead < turn.ttlSecs.toNat + 30)
    (h : RestartsKept hmac turn s r) (range : s.InRange turn ahead) :
    RestartsKept hmac turn (s.fetch turn ahead manual owner .relay)
      (r.mintedFor ahead s owner) := by
  rw [RelayHost.fetch]
  cases found : s.cache.reusable owner (s.brokerNow ahead) with
  | some c =>
      refine h.of_restarts (restarts_mintedFor s owner) (Nat.le_refl _) h.minted ?_
      obtain ⟨⟨turn', at_, given, made⟩, lives⟩ := h.minted.reusable found
      obtain rfl := Option.some.inj given
      rw [made]
      refine phaseKept_starting fun x member => ?_
      obtain ⟨-, expired, -, past⟩ := h.sound x member
      have settled : x.expiry + 30 ≤ x.time := expired
      have later := (range.reusable_iff c).mp lives
      rw [← made]
      omega
  | none =>
      refine h.of_restarts (restarts_mintedFor s owner) (Nat.le_refl _) h.minted ?_
      intro x member
      obtain ⟨-, expired, -, past⟩ := h.sound x member
      have settled : x.expiry + 30 ≤ x.time := expired
      rw [range.toInt_brokerNow]
      omega

/-- When the thread restarts the host, the credential has expired, the process has run for ten
minutes, and no session is active. -/
theorem refreshMove_restart {expiry started now : Nat} {active : Bool} (small : expiry < 2 ^ 63)
    (h : refreshMove expiry started now active = .restart) :
    active = false ∧ expiry + settleSecs ≤ now ∧ started + minRestartInterval ≤ now := by
  have settle : settleSecs = 30 := rfl
  have interval : minRestartInterval = 600 := rfl
  simp only [refreshMove] at h
  split at h
  · cases h
  · split at h
    · cases h
    · split at h
      · cases h
      · rename_i due old idle
        exact ⟨Bool.eq_false_iff.mpr idle, by omega, by omega⟩

theorem RestartsKept.iterate (h : RestartsKept hmac turn s r) {expiry started wake : Nat}
    (at_ : s.phase = .watching expiry started wake) :
    RestartsKept hmac turn (s.iterate owner expiry started)
      (r.note ahead owner s .iterate (s.iterate owner expiry started)) := by
  have phase := h.phase
  rw [at_] at phase
  obtain ⟨small, begun, later⟩ := phase
  rw [RefreshRecord.note, at_, RelayHost.iterate]
  cases move : refreshMove expiry started s.clock s.active with
  | sleep secs =>
      exact h.of_restarts rfl (Nat.le_refl _) h.minted ⟨small, begun, later⟩
  | restart =>
      obtain ⟨idle, expired, spaced⟩ := refreshMove_restart small move
      refine ⟨h.minted, ?_, ?_, trivial⟩
      · intro x member
        rcases List.mem_cons.mp member with new | old
        · rw [new]
          exact ⟨idle, expired, spaced, Nat.le_refl _⟩
        · exact h.sound x old
      · refine List.pairwise_cons.mpr ⟨?_, h.apart⟩
        intro x member
        exact later x member

theorem RestartsKept.start (h : RestartsKept hmac turn s r) {servers : List IceServer}
    (at_ : s.phase = .starting servers) :
    RestartsKept hmac turn (s.start servers) (r.seen (s.start servers)) := by
  have phase := h.phase
  rw [at_] at phase
  refine h.of_restarts rfl (Nat.le_refl _) h.minted ?_
  rw [RelayHost.start]
  dsimp only
  cases read : earliestTurnExpiry servers with
  | none => exact trivial
  | some e =>
      obtain ⟨small, less⟩ := phase e read
      refine ⟨small, Nat.le_refl _, ?_⟩
      intro x member
      exact ⟨(h.sound x member).2.2.2, less x member⟩

theorem RestartsKept.step (slow : ahead ≤ 90) (lasts : ahead < turn.ttlSecs.toNat + 30)
    (h : RestartsKept hmac turn s r) (called : Called ahead owner s)
    (range : s.InRange turn ahead) {l : RefreshLabel}
    (moved : s.step hmac turn ahead manual owner l = some s') :
    RestartsKept hmac turn s' (r.note ahead owner s l s') := by
  have did := step_cases moved
  cases did with
  | ticked secs =>
      exact h.of_restarts rfl (Nat.le_add_right ..) h.minted (h.phase.later (Nat.le_add_right ..))
  | session active => exact h.of_restarts rfl (Nat.le_refl _) h.minted h.phase
  | served userId =>
      obtain ⟨pending, same⟩ := s.serve_eq ahead userId
      rw [same]
      exact h.of_restarts (restarts_mintedFor s userId) (Nat.le_refl _) h.minted h.phase
  | stored waits =>
      refine h.of_restarts ?_ (Nat.le_refl _) (h.minted.store _ _ _) h.phase
      rw [RefreshRecord.note, waits]
      rfl
  | fetches how booting =>
      cases how with
      | relay => exact h.fetch slow lasts range
      | stun =>
          exact h.of_restarts rfl (Nat.le_refl _) h.minted
            (phaseKept_nameless fun _ => TurnConfig.nameless)
      | failed =>
          exact h.of_restarts rfl (Nat.le_refl _) h.minted
            (phaseKept_nameless fun _ => username_manualIce)
  | fetched asks =>
      have phase := h.phase
      rw [asks] at phase
      have past := called.own asks
      refine h.of_restarts ?_ (Nat.le_refl _) (h.minted.store _ _ _)
        (phaseKept_starting fun x member => ?_)
      · rw [RefreshRecord.note, asks]
        rfl
      · rw [range.toInt_expiry hmac past owner]
        exact phase x member
  | lost asks => exact h.of_restarts rfl (Nat.le_refl _) h.minted trivial
  | starts fetched => exact h.start fetched
  | iterates watching awake => exact h.iterate watching
  | relaunched => exact h.of_restarts rfl (Nat.le_refl _) h.minted trivial

/-- The restarts of a run are ten minutes apart. Each comes when its credential has been expired
for half a minute and no session is active, and each finds a credential that expires later than
the one before, while the host's clock is not too far ahead of that of the rendezvous. -/
theorem relay_restarts (slow : ahead ≤ 90) (lasts : ahead < turn.ttlSecs.toNat + 30)
    (s : RelayHost × RefreshRecord)
    (run : (recorded hmac turn ahead manual owner).ReachableBy
      (fun t _ => t.1.InRange turn ahead) s) :
    (∀ x ∈ s.2.restarts, x.active = false ∧ x.expiry + settleSecs ≤ x.time ∧
      x.started + minRestartInterval ≤ x.time) ∧
    s.2.restarts.Pairwise fun later earlier =>
      earlier.time + minRestartInterval ≤ later.time ∧ earlier.expiry < later.expiry := by
  obtain ⟨kept, -⟩ : RestartsKept hmac turn s.1 s.2 ∧ Called ahead owner s.1 := by
    refine run.invariant
      (I := fun s => RestartsKept hmac turn s.1 s.2 ∧ Called ahead owner s.1) ?_ ?_
    · rintro s ⟨⟨empty, free, -, booting⟩, noted⟩
      rw [noted]
      refine ⟨⟨?_, nofun, .nil, ?_⟩, called_of_booting free booting⟩
      · rw [empty]
        exact nofun
      · rw [booting]
        exact trivial
    · intro s l s' h range step
      obtain ⟨taken, noted⟩ := Machine.recording_step_iff.mp step
      rw [noted]
      exact ⟨h.1.step slow lasts h.2 range taken, h.2.step range taken⟩
  refine ⟨fun x member => ?_, ?_⟩
  · obtain ⟨idle, expired, spaced, -⟩ := kept.sound x member
    exact ⟨idle, expired, spaced⟩
  · refine kept.apart.imp_of_mem ?_
    rintro later earlier member - ⟨begun, less⟩
    have spaced := (kept.sound later member).2.2.1
    exact ⟨by omega, less⟩

def sampleTurn : TurnConfig := ⟨"secret", "relay.example", 3478, 600⟩

/-- A host that asks for a relay, and the thread that waits for its credential to expire. -/
def sampleRefresh : List RefreshLabel :=
  [.fetch .relay, .fetched, .start, .iterate, .tick 630, .iterate]

/-- Two restarts in their places. -/
theorem relay_restarts_two : ∃ s,
    (recorded (fun _ _ => [7]) sampleTurn 0 "" 42).ReachableBy
      (fun t _ => t.1.InRange sampleTurn 0) s ∧
    s.2.restarts = [⟨2230, 1630, 2260, false⟩, ⟨1600, 1000, 1630, false⟩] ∧
    s.2.restarts.Pairwise fun later earlier =>
      earlier.time + minRestartInterval ≤ later.time ∧ earlier.expiry < later.expiry := by
  obtain ⟨s, run, twice⟩ := Machine.exists_reachableBy
    (recorded (fun _ _ => [7]) sampleTurn 0 "" 42) (fun t _ => t.1.InRange sampleTurn 0)
    (s := (⟨1000, fun _ => none, [], false, .booting⟩, ⟨[], [], fun _ => none, 0⟩))
    ⟨⟨rfl, rfl, rfl, rfl⟩, rfl⟩
    (sampleRefresh ++ sampleRefresh)
    (fun s => s.2.restarts = [⟨2230, 1630, 2260, false⟩, ⟨1600, 1000, 1630, false⟩])
    (by decide +kernel)
  exact ⟨s, run, twice, (relay_restarts (by decide) (by decide) s run).2⟩

/-! ## The credentials of a run -/

/-- Since a credential was stored for a user, its time is over, or it is kept. -/
def StoredKept (turn : TurnConfig) (ahead : Int) (s : RelayHost) (stored : Int → Option Int64) :
    Prop :=
  ∀ u t, stored u = some t → t.toInt + turn.ttlSecs.toNat ≤ s.clock - ahead ∨
    ∃ c, s.cache u = some c ∧ c.expiry.toInt = t.toInt + turn.ttlSecs.toNat

/-- The credential that had been stored last for the user has a minute left or less. -/
def RelayMint.Due (turn : TurnConfig) (m : RelayMint) : Prop :=
  ∀ t, m.last = some t → t.toInt + turn.ttlSecs.toNat ≤ m.now.toInt + 60

structure MintsKept (turn : TurnConfig) (ahead owner : Int) (s : RelayHost) (r : RefreshRecord) :
    Prop where
  stored : StoredKept turn ahead s r.stored
  due : ∀ m ∈ r.mints, RelayMint.Due turn m
  called : Called ahead owner s

theorem StoredKept.later {stored : Int → Option Int64} (h : StoredKept turn ahead s stored)
    (cache : s'.cache = s.cache) (later : s.clock ≤ s'.clock) :
    StoredKept turn ahead s' stored := by
  intro u t last
  rcases h u t last with gone | kept
  · exact .inl (by omega)
  · rw [← cache] at kept
    exact .inr kept

/-- A call that mints a credential comes late enough after the one that is kept. -/
theorem StoredKept.due {stored : Int → Option Int64} (h : StoredKept turn ahead s stored)
    (range : s.InRange turn ahead) {userId : Int}
    (missing : s.cache.reusable userId (s.brokerNow ahead) = none) :
    RelayMint.Due turn ⟨userId, s.brokerNow ahead, stored userId⟩ := by
  intro t last
  have now := range.toInt_brokerNow
  dsimp only
  rcases h userId t last with gone | ⟨c, kept, lasts⟩
  · omega
  · have dying : ¬ s.brokerNow ahead + 60 < c.expiry := by
      intro lives
      rw [IceCache.reusable, kept, Option.filter_some, if_pos (decide_eq_true lives)] at missing
      cases missing
    rw [range.reusable_iff] at dying
    omega

/-- A credential is stored, and what has expired by then is thrown out. -/
theorem StoredKept.store {stored : Int → Option Int64} (h : StoredKept turn ahead s stored)
    (range : s.InRange turn ahead) {userId : Int} {now : Int64}
    (past : 0 ≤ now.toInt ∧ now.toInt ≤ s.clock - ahead) (same : s'.clock = s.clock)
    (cache : s'.cache = s.cache.store userId now (turn.mint hmac userId now)) :
    StoredKept turn ahead s' (Function.update stored userId (some now)) := by
  intro u t last
  by_cases own : u = userId
  · rw [own, Function.update_self] at last
    obtain rfl := Option.some.inj last
    refine .inr ⟨turn.mint hmac userId now, ?_, range.toInt_expiry hmac past userId⟩
    rw [cache, own, IceCache.store_self]
  · rw [Function.update_of_ne own] at last
    rcases h u t last with gone | ⟨c, kept, lasts⟩
    · exact .inl (by omega)
    · by_cases lives : now < c.expiry
      · refine .inr ⟨c, ?_, lasts⟩
        rw [cache, IceCache.store_of_ne _ _ _ own, kept, Option.filter_some,
          if_pos (decide_eq_true lives)]
      · rw [Int64.lt_iff_toInt_lt] at lives
        exact .inl (by omega)

theorem iterate_kept (s : RelayHost) (owner : Int) (expiry started : Nat) :
    (s.iterate owner expiry started).cache = s.cache ∧
      (s.iterate owner expiry started).clock = s.clock := by
  unfold RelayHost.iterate
  split
  · exact ⟨rfl, rfl⟩
  · exact ⟨rfl, rfl⟩

theorem MintsKept.mintedFor (h : MintsKept turn ahead owner s r) (range : s.InRange turn ahead)
    {userId : Int} (cache : s'.cache = s.cache) (later : s.clock ≤ s'.clock)
    (called : Called ahead owner s') :
    MintsKept turn ahead owner s' (r.mintedFor ahead s userId) := by
  unfold RefreshRecord.mintedFor
  split
  · rename_i missing
    refine ⟨h.stored.later cache later, ?_, called⟩
    intro m member
    rcases List.mem_cons.mp member with rfl | old
    · exact h.stored.due range missing
    · exact h.due m old
  · exact ⟨h.stored.later cache later, h.due, called⟩

theorem MintsKept.step (h : MintsKept turn ahead owner s r) (range : s.InRange turn ahead)
    {l : RefreshLabel} (moved : s.step hmac turn ahead manual owner l = some s') :
    MintsKept turn ahead owner s' (r.note ahead owner s l s') := by
  have called := h.called.step range moved
  have quiet : ∀ r' : RefreshRecord, r'.mints = r.mints → r'.stored = r.stored →
      s'.cache = s.cache → s.clock ≤ s'.clock → MintsKept turn ahead owner s' r' := by
    intro r' mints stored cache later
    refine ⟨?_, ?_, called⟩
    · rw [stored]
      exact h.stored.later cache later
    · rw [mints]
      exact h.due
  have did := step_cases moved
  cases did with
  | ticked secs => exact quiet _ rfl rfl rfl (Nat.le_add_right ..)
  | session active => exact quiet _ rfl rfl rfl (Nat.le_refl _)
  | served userId =>
      obtain ⟨pending, same⟩ := s.serve_eq ahead userId
      rw [same] at called ⊢
      exact h.mintedFor range rfl (Nat.le_refl _) called
  | stored waits =>
      have past := h.called _ (List.mem_append_left _ (List.mem_of_getElem? waits))
      rw [RefreshRecord.note, waits]
      exact ⟨h.stored.store range past rfl rfl, h.due, called⟩
  | fetches how booting =>
      cases how with
      | relay =>
          obtain ⟨phase, -, same⟩ := s.fetch_relay_eq turn ahead manual owner
          rw [same] at called ⊢
          exact h.mintedFor range rfl (Nat.le_refl _) called
      | stun => exact quiet _ rfl rfl rfl (Nat.le_refl _)
      | failed => exact quiet _ rfl rfl rfl (Nat.le_refl _)
  | fetched asks =>
      rw [RefreshRecord.note, asks]
      exact ⟨h.stored.store range (h.called.own asks) rfl rfl, h.due, called⟩
  | lost asks => exact quiet _ rfl rfl rfl (Nat.le_refl _)
  | starts fetched => exact quiet _ rfl rfl rfl (Nat.le_refl _)
  | @iterates expiry started wake watching awake =>
      obtain ⟨cache, clock⟩ := iterate_kept s owner expiry started
      have noted : ∀ s', (r.note ahead owner s .iterate s').mints = r.mints ∧
          (r.note ahead owner s .iterate s').stored = r.stored := by
        intro s'
        rw [RefreshRecord.note, watching]
        split
        · exact ⟨rfl, rfl⟩
        · exact ⟨rfl, rfl⟩
      exact quiet _ (noted _).1 (noted _).2 cache clock.ge
  | relaunched => exact quiet _ rfl rfl rfl (Nat.le_refl _)

/-- A credential is minted for a user only by a call that finds, at its first lock, that the one
stored last for the user has a minute left or less, whatever other calls are between their locks. -/
theorem relay_credentials_due (s : RelayHost × RefreshRecord)
    (run : (recorded hmac turn ahead manual owner).ReachableBy
      (fun t _ => t.1.InRange turn ahead) s) : ∀ m ∈ s.2.mints, RelayMint.Due turn m := by
  refine (run.invariant (I := fun s => MintsKept turn ahead owner s.1 s.2) ?_ ?_).due
  · rintro s ⟨⟨-, free, -, booting⟩, noted⟩
    rw [noted]
    exact ⟨nofun, nofun, called_of_booting free booting⟩
  · intro s l s' h range step
    obtain ⟨taken, noted⟩ := Machine.recording_step_iff.mp step
    rw [noted]
    exact h.step range taken

/-- Two calls cross and both mint; a third is answered by what was stored, and a fourth, at its last
minute, mints one. -/
theorem relay_credentials_due_crossed : ∃ s,
    (recorded (fun _ _ => [7]) sampleTurn 0 "" 42).ReachableBy
      (fun t _ => t.1.InRange sampleTurn 0) s ∧
    s.2.mints = [⟨42, 1540, some 1000⟩, ⟨42, 1000, none⟩, ⟨42, 1000, none⟩] ∧
    ∀ m ∈ s.2.mints, RelayMint.Due sampleTurn m := by
  obtain ⟨s, run, mints⟩ := Machine.exists_reachableBy
    (recorded (fun _ _ => [7]) sampleTurn 0 "" 42) (fun t _ => t.1.InRange sampleTurn 0)
    (s := (⟨1000, fun _ => none, [], false, .booting⟩, ⟨[], [], fun _ => none, 0⟩))
    ⟨⟨rfl, rfl, rfl, rfl⟩, rfl⟩
    [.fetch .relay, .serve 42, .store 0, .fetched, .tick 539, .serve 42, .tick 1, .serve 42]
    (fun s => s.2.mints = [⟨42, 1540, some 1000⟩, ⟨42, 1000, none⟩, ⟨42, 1000, none⟩])
    (by decide +kernel)
  exact ⟨s, run, mints, relay_credentials_due s run⟩

/-! ## A thread that wakes in time -/

/-- The thread takes its next step when its sleep is over. -/
def Prompt (s : RelayHost) : RefreshLabel → Prop
  | .tick secs => ∀ expiry started wake, s.phase = .watching expiry started wake →
      s.clock + secs ≤ wake
  | _ => True

/-- When the thread restarts the host at the latest. -/
def latest (expiry started busy : Nat) : Nat :=
  max (expiry + settleSecs) (max (started + minRestartInterval) (busy + 30))

structure PromptKept (s : RelayHost) (r : RefreshRecord) : Prop where
  busy : r.busy ≤ s.clock ∧ (s.active = true → r.busy = s.clock)
  watching : ∀ expiry started wake, s.phase = .watching expiry started wake →
    started ≤ s.clock ∧ s.clock ≤ wake ∧ wake ≤ latest expiry started r.busy

theorem busy_seen (s' : RelayHost) (h : r.busy ≤ s.clock) (later : s.clock ≤ s'.clock) :
    r.busy ≤ (r.seen s').busy ∧ (r.seen s').busy ≤ s'.clock ∧
      (s'.active = true → (r.seen s').busy = s'.clock) := by
  unfold RefreshRecord.seen
  dsimp only
  split
  · exact ⟨h.trans later, Nat.le_refl _, fun _ => rfl⟩
  · rename_i idle
    exact ⟨Nat.le_refl _, h.trans later, fun active => absurd active idle⟩

theorem latest_mono {expiry started busy busy' : Nat} (later : busy ≤ busy') :
    latest expiry started busy ≤ latest expiry started busy' := by
  unfold latest
  omega

/-- What comes between two iterations of the thread, while its phase stays. -/
theorem PromptKept.seen (h : PromptKept s r) (phase : s'.phase = s.phase)
    (later : s.clock ≤ s'.clock)
    (prompt : ∀ expiry started wake, s.phase = .watching expiry started wake → s'.clock ≤ wake) :
    PromptKept s' (r.seen s') := by
  obtain ⟨grows, known⟩ := busy_seen s' h.busy.1 later
  refine ⟨known, ?_⟩
  intro expiry started wake at_
  rw [phase] at at_
  obtain ⟨begun, -, bound⟩ := h.watching expiry started wake at_
  exact ⟨begun.trans later, prompt expiry started wake at_, bound.trans (latest_mono grows)⟩

/-- A phase in which the thread does not run. -/
theorem PromptKept.idle (h : PromptKept s r) (later : s.clock ≤ s'.clock)
    (phase : ∀ expiry started wake, s'.phase ≠ .watching expiry started wake) :
    PromptKept s' (r.seen s') where
  busy := (busy_seen s' h.busy.1 later).2
  watching expiry started wake at_ := absurd at_ (phase expiry started wake)

theorem PromptKept.mintedFor {userId : Int} (h : PromptKept s r) (clock : s'.clock = s.clock)
    (active : s'.active = s.active)
    (phase : s'.phase = s.phase ∨ ∀ expiry started wake, s'.phase ≠ .watching expiry started wake) :
    PromptKept s' (r.mintedFor ahead s userId) := by
  have same : (r.mintedFor ahead s userId).busy = r.busy := by
    unfold RefreshRecord.mintedFor
    split <;> rfl
  constructor
  · rw [same, clock, active]
    exact h.busy
  · intro expiry started wake at_
    rcases phase with stays | leaves
    · rw [same, clock]
      exact h.watching expiry started wake (stays ▸ at_)
    · exact absurd at_ (leaves expiry started wake)

/-- The thread sleeps no longer than it has to. -/
theorem refreshMove_sleep {expiry started now busy secs : Nat} {active : Bool}
    (begun : started ≤ now) (seen : active = true → busy = now)
    (h : refreshMove expiry started now active = .sleep secs) :
    now + secs ≤ latest expiry started busy := by
  have settle : settleSecs = 30 := rfl
  have interval : minRestartInterval = 600 := rfl
  simp only [refreshMove] at h
  unfold latest
  split at h
  · obtain rfl := RefreshMove.sleep.inj h
    omega
  · split at h
    · obtain rfl := RefreshMove.sleep.inj h
      omega
    · split at h
      · rename_i active
        obtain rfl := RefreshMove.sleep.inj h
        have recent := seen active
        omega
      · cases h

theorem PromptKept.iterate (h : PromptKept s r) {expiry started wake : Nat}
    (at_ : s.phase = .watching expiry started wake) :
    PromptKept (s.iterate owner expiry started)
      (r.note ahead owner s .iterate (s.iterate owner expiry started)) := by
  obtain ⟨begun, -, -⟩ := h.watching expiry started wake at_
  rw [RefreshRecord.note, at_, RelayHost.iterate]
  cases move : refreshMove expiry started s.clock s.active with
  | sleep secs =>
      dsimp only
      obtain ⟨grows, known⟩ := busy_seen { s with
        phase := .watching expiry started (s.clock + secs) } h.busy.1 (Nat.le_refl _)
      refine ⟨known, ?_⟩
      intro expiry' started' wake' now
      obtain ⟨rfl, rfl, rfl⟩ := HostPhase.watching.inj now
      exact ⟨begun, Nat.le_add_right .., refreshMove_sleep begun known.2 move⟩
  | restart =>
      refine ⟨⟨h.busy.1, nofun⟩, ?_⟩
      intro expiry' started' wake' now
      cases now

theorem PromptKept.start (h : PromptKept s r) (servers : List IceServer) :
    PromptKept (s.start servers) (r.seen (s.start servers)) := by
  have known := busy_seen (s.start servers) h.busy.1 (Nat.le_refl _)
  refine ⟨known.2, ?_⟩
  intro expiry started wake at_
  rw [RelayHost.start] at at_
  dsimp only at at_
  cases read : earliestTurnExpiry servers with
  | none =>
      rw [read] at at_
      cases at_
  | some e =>
      rw [read] at at_
      obtain ⟨rfl, rfl, rfl⟩ := HostPhase.watching.inj at_
      refine ⟨Nat.le_refl _, Nat.le_refl _, ?_⟩
      have interval : minRestartInterval = 600 := rfl
      unfold latest
      dsimp only [RelayHost.start]
      omega

theorem PromptKept.step (h : PromptKept s r) {l : RefreshLabel} (prompt : Prompt s l)
    (moved : s.step hmac turn ahead manual owner l = some s') :
    PromptKept s' (r.note ahead owner s l s') := by
  have awake : ∀ expiry started wake, s.phase = .watching expiry started wake →
      s.clock ≤ wake := fun expiry started wake at_ => (h.watching expiry started wake at_).2.1
  have did := step_cases moved
  cases did with
  | ticked secs => exact h.seen rfl (Nat.le_add_right ..) prompt
  | session active => exact h.seen rfl (Nat.le_refl _) awake
  | served userId =>
      obtain ⟨pending, same⟩ := s.serve_eq ahead userId
      rw [same]
      exact h.mintedFor rfl rfl (.inl rfl)
  | stored waits =>
      rw [RefreshRecord.note, waits]
      exact ⟨h.busy, h.watching⟩
  | fetches how booting =>
      cases how with
      | relay =>
          obtain ⟨phase, awaits, same⟩ := s.fetch_relay_eq turn ahead manual owner
          rw [same]
          exact h.mintedFor rfl rfl (.inr awaits)
      | stun => exact h.idle (Nat.le_refl _) nofun
      | failed => exact h.idle (Nat.le_refl _) nofun
  | fetched asks =>
      rw [RefreshRecord.note, asks]
      exact ⟨h.busy, nofun⟩
  | lost asks => exact h.idle (Nat.le_refl _) nofun
  | starts fetched => exact h.start _
  | iterates watching awake => exact h.iterate watching
  | relaunched => exact h.idle (Nat.le_refl _) nofun

/-- While the thread wakes in time, a host that has not restarted yet has a credential that expired
less than half a minute ago, or has run for less than ten minutes, or had a session half a minute
ago. -/
theorem relay_refresh_prompt (s : RelayHost × RefreshRecord)
    (run : (recorded hmac turn ahead manual owner).ReachableBy (fun t l => Prompt t.1 l) s)
    (expiry started wake : Nat) (watching : s.1.phase = .watching expiry started wake) :
    s.1.clock ≤ max (expiry + 30) (max (started + 600) (s.2.busy + 30)) := by
  have kept : PromptKept s.1 s.2 := by
    refine run.invariant (I := fun s => PromptKept s.1 s.2) ?_ ?_
    · rintro s ⟨⟨-, -, idle, booting⟩, noted⟩
      rw [noted]
      refine ⟨⟨Nat.zero_le _, ?_⟩, ?_⟩
      · intro active
        rw [idle] at active
        cases active
      · intro expiry started wake at_
        rw [booting] at at_
        cases at_
    · intro s l s' h prompt step
      obtain ⟨taken, noted⟩ := Machine.recording_step_iff.mp step
      rw [noted]
      exact h.step prompt taken
  obtain ⟨-, awake, bound⟩ := kept.watching expiry started wake watching
  exact awake.trans bound

instance (s : RelayHost) (l : RefreshLabel) : Decidable (Prompt s l) :=
  match l with
  | .tick secs =>
    match phase : s.phase with
    | .watching expiry started wake =>
      decidable_of_iff (s.clock + secs ≤ wake) (by
        constructor
        · intro bound expiry' started' wake' at_
          obtain ⟨-, -, rfl⟩ := HostPhase.watching.inj (phase.symm.trans at_)
          exact bound
        · intro bound
          exact bound expiry started wake phase)
    | .booting | .minting _ | .starting _ | .unwatched => .isTrue (by
        intro expiry started wake at_
        rw [phase] at at_
        cases at_)
  | .session _ | .serve _ | .store _ | .fetch _ | .fetched | .lost | .start | .iterate
  | .relaunch => .isTrue trivial

/-- A session that goes on holds the restart off. -/
theorem relay_refresh_prompt_busy : ∃ s,
    (recorded (fun _ _ => [7]) sampleTurn 0 "" 42).ReachableBy (fun t l => Prompt t.1 l) s ∧
    s.1.phase = .watching 1600 1000 1660 ∧ s.2.busy = 1640 ∧
    s.1.clock ≤ max (1600 + 30) (max (1000 + 600) (s.2.busy + 30)) := by
  obtain ⟨s, run, watching, busy⟩ := Machine.exists_reachableBy
    (recorded (fun _ _ => [7]) sampleTurn 0 "" 42) (fun t l => Prompt t.1 l)
    (s := (⟨1000, fun _ => none, [], false, .booting⟩, ⟨[], [], fun _ => none, 0⟩))
    ⟨⟨rfl, rfl, rfl, rfl⟩, rfl⟩
    [.fetch .relay, .fetched, .start, .iterate, .session true, .tick 630, .iterate, .tick 10,
      .session false, .tick 20]
    (fun s => s.1.phase = .watching 1600 1000 1660 ∧ s.2.busy = 1640) (by decide +kernel)
  exact ⟨s, run, watching, busy, relay_refresh_prompt s run 1600 1000 1660 watching⟩

end RelayHost
end ReachMyDevice
