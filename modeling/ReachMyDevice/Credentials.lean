import ReachMyDevice.Lib.Histories
import ReachMyDevice.TokenOwnership
import ReachMyDevice.Tickets

/-!
# Bearer tokens

A console session and a device token are drawn by one generator and kept, as
hashes, in a table each. A header carries either.
-/
namespace ReachMyDevice
open Machines Histories

structure UserSession where
  userId : Int
  tokenHash : String
  createdAt : Int64
  expiresAt : Int64
  deriving DecidableEq

def sessionTtlSecs : Int64 := 30 * 24 * 3600

/-- A token that is presented in a header `Authorization: Bearer`. -/
def bearerToken (authorization : Option String) : Option String :=
  ((authorization.bind fun v => stripPrefix "Bearer ".toList v.toList).map fun rest =>
    String.ofList (trim rest)).filter (· ≠ "")

/-- The header, or else the query. -/
def requestToken (authorization query : Option String) : Option String :=
  (bearerToken authorization).or query

structure CredentialServer where
  tokens : TokenServer
  sessions : List UserSession

inductive CredentialLabel
  | registry (l : RegistryLabel)
  /-- By password or by passkey. -/
  | login (user : Except AppError Int) (ok : Bool) (now : Int64)
  | revokeUserSession (token : String) (ok : Bool)

namespace CredentialServer
variable (crypto : Crypto) (generateToken : Nat → String) (hashToken : String → String)
  (tokenTtlSecs : Option UInt64) (s : CredentialServer)

abbrev db : DeviceDb := s.tokens.db

/-- The next token has been drawn. -/
def draw : CredentialServer :=
  { s with tokens := { s.tokens with generated := s.tokens.generated + 1 } }

def sessionRow (userId : Int) (now : Int64) : UserSession where
  userId := userId
  tokenHash := hashToken (generateToken s.tokens.generated)
  createdAt := now
  expiresAt := now + sessionTtlSecs

/-- The hash must be new. -/
def admits (row : UserSession) : Bool := s.sessions.all (·.tokenHash != row.tokenHash)

def mintUserSession (userId : Int) (ok : Bool) (now : Int64) :
    Except AppError String × CredentialServer :=
  let row := s.sessionRow generateToken hashToken userId now
  if ok ∧ s.admits row then
    (.ok (generateToken s.tokens.generated), { s.draw with sessions := s.sessions ++ [row] })
  else (.error .db, s.draw)

def login (user : Except AppError Int) (ok : Bool) (now : Int64) :
    Except AppError String × CredentialServer :=
  match user with
  | .ok userId => s.mintUserSession generateToken hashToken userId ok now
  | .error e => (.error e, s)

def userIdForSession (token : String) (now : Int64) : Option Int :=
  (s.sessions.find? fun r => r.tokenHash = hashToken token ∧ now < r.expiresAt).map (·.userId)

def revokeUserSession (token : String) (ok : Bool) : CredentialServer :=
  if ok then { s with sessions := s.sessions.filter (·.tokenHash != hashToken token) } else s

/-- `basic` is what the header says as HTTP Basic. -/
def authedUser (authorization : Option String) (basic : Except AppError Int) (now : Int64) :
    Except AppError Int :=
  match bearerToken authorization with
  | some token =>
    match s.userIdForSession hashToken token now with
    | some userId => .ok userId
    | none => .error .unauthorized
  | none => basic

variable {hashToken s} in
/-- A bearer token is taken as a session, whatever else the header may be. -/
theorem authedUser_eq_ok_iff {authorization : Option String} {token : String}
    (presented : bearerToken authorization = some token) {basic : Except AppError Int}
    {now : Int64} {userId : Int} :
    s.authedUser hashToken authorization basic now = .ok userId ↔
      s.userIdForSession hashToken token now = some userId := by
  rw [authedUser, presented]
  dsimp only
  split
  · rename_i session
    rw [session, Except.ok.injEq, Option.some.injEq]
  · rename_i session
    rw [session]
    exact iff_of_false nofun nofun

/-- `DeviceTokenResolver`. -/
def resolve (token : String) (now : Int64) : Option ResolvedCredential :=
  (s.db.resolve hashToken token now).map fun (userId, deviceId) => ⟨userId, deviceId⟩

def step : CredentialLabel → Option CredentialServer
  | .registry l => (s.tokens.registryStep crypto generateToken hashToken tokenTtlSecs l).map
      fun tokens => { s with tokens }
  | .login user ok now => some (s.login generateToken hashToken user ok now).2
  | .revokeUserSession token ok => some (s.revokeUserSession hashToken token ok)

/-- What a step tells of tokens. -/
def told : CredentialLabel → List CredentialEvent
  | .registry l => s.tokens.told generateToken hashToken tokenTtlSecs l
  | .login (.ok userId) ok now =>
    let row := s.sessionRow generateToken hashToken userId now
    if ok ∧ s.admits row then
      [.issued (generateToken s.tokens.generated) (.session userId) (some row.expiresAt)]
    else []
  | .login (.error _) _ _ => []
  | .revokeUserSession token ok => if ok then [.signedOut token] else []

end CredentialServer

/-- Whether a token that is for this holder is good no longer. -/
def CredentialEvent.ends (token : String) : Holder → CredentialEvent → Prop
  | .device _ deviceId, .rotated deviceId' => deviceId' = deviceId
  | .device userId deviceId, .deviceDeleted userId' deviceId' =>
    userId' = userId ∧ deviceId' = deviceId
  | .session _, .signedOut token' => token' = token
  | _, _ => False

/-- A token was issued for a holder, and has not been ended since. -/
def Stands (history : List CredentialEvent) (token : String) (holder : Holder)
    (expiresAt : Option Int64) : Prop :=
  Since (· = .issued token holder expiresAt) (CredentialEvent.ends token holder) history

/-- Nor has it expired. -/
def Live (history : List CredentialEvent) (now : Int64) (token : String) (holder : Holder) : Prop :=
  ∃ expiresAt, Stands history token holder expiresAt ∧ expiresAt.all (now < ·) = true

/-! ## What the table of device tokens says -/

namespace DeviceDb
variable (db : DeviceDb) (hashToken : String → String)

/-- A token that is stored for a device. -/
def Stores (token : String) (userId : Int) (deviceId : String) (expiresAt : Option Int64) : Prop :=
  ∃ t ∈ db.tokens, t.tokenHash = hashToken token ∧ t.expiresAt = expiresAt ∧
    ∃ d ∈ db.devices, d.id = t.devicePk ∧ d.userId = userId ∧ d.deviceId = deviceId

variable {db hashToken} {generateToken : Nat → String} {generated : Nat} {token : String}
  {userId : Int} {deviceId : String} {expiresAt : Option Int64}

theorem stores_updateDevice (id : Nat) (body : RegisterDevice) :
    (db.updateDevice id body).Stores hashToken token userId deviceId expiresAt ↔
      db.Stores hashToken token userId deviceId expiresAt := by
  constructor
  · rintro ⟨t, stored, hash, expires, d', listed, row, owner, name⟩
    obtain ⟨d, before, same⟩ := db.updateDevice_row listed
    exact ⟨t, stored, hash, expires, d, before, same.1.symm.trans row, same.2.1.symm.trans owner,
      same.2.2.symm.trans name⟩
  · rintro ⟨t, stored, hash, expires, d, listed, row, owner, name⟩
    refine ⟨t, stored, hash, expires, _, List.mem_map_of_mem listed, ?_⟩
    split
    · exact ⟨row, owner, name⟩
    · exact ⟨row, owner, name⟩

theorem stores_insertDevice (sound : db.Sound hashToken generateToken generated) (owner : Int)
    (body : RegisterDevice) (now : Int64) :
    (db.insertDevice owner body now).Stores hashToken token userId deviceId expiresAt ↔
      db.Stores hashToken token userId deviceId expiresAt := by
  constructor
  · rintro ⟨t, stored, hash, expires, d, listed, row, own⟩
    obtain before | new := List.mem_append.mp listed
    · exact ⟨t, stored, hash, expires, d, before, row, own⟩
    · -- no token has the id of the new row
      obtain rfl := List.mem_singleton.mp new
      obtain ⟨d, there, tied⟩ := sound.tied t stored
      exact absurd (tied.trans row.symm) (Nat.ne_of_lt (db.lt_nextId there))
  · rintro ⟨t, stored, hash, expires, d, listed, own⟩
    exact ⟨t, stored, hash, expires, d, List.mem_append_left _ listed, own⟩

theorem stores_deleteTokens (sound : db.Sound hashToken generateToken generated) {d : Device}
    (listed : d ∈ db.devices) :
    (db.deleteTokens d.id).Stores hashToken token userId deviceId expiresAt ↔
      db.Stores hashToken token userId deviceId expiresAt ∧ d.deviceId ≠ deviceId := by
  constructor
  · rintro ⟨t, stored, hash, expires, d', there, row, owner, name⟩
    obtain ⟨stored, kept⟩ := List.mem_filter.mp stored
    refine ⟨⟨t, stored, hash, expires, d', there, row, owner, name⟩, fun same => ?_⟩
    have rows : d = d' := List.inj_on_of_nodup_map sound.named listed there (same.trans name.symm)
    exact of_decide_eq_true kept (row.symm.trans (congrArg Device.id rows.symm))
  · rintro ⟨⟨t, stored, hash, expires, d', there, row, owner, name⟩, other⟩
    refine ⟨t, List.mem_filter.mpr ⟨stored, decide_eq_true fun same => other ?_⟩, hash, expires, d',
      there, row, owner, name⟩
    rw [sound.unique listed there (same.symm.trans row.symm)]
    exact name

theorem stores_insertToken (sound : db.Sound hashToken generateToken generated) {d : Device}
    (listed : d ∈ db.devices) {row : DeviceTokenRow} (own : d.id = row.devicePk) :
    (db.insertToken row).Stores hashToken token userId deviceId expiresAt ↔
      (row.tokenHash = hashToken token ∧ row.expiresAt = expiresAt ∧ d.userId = userId ∧
          d.deviceId = deviceId) ∨
        db.Stores hashToken token userId deviceId expiresAt := by
  constructor
  · rintro ⟨t, stored, hash, expires, d', there, id, owner⟩
    obtain before | new := List.mem_append.mp stored
    · exact .inr ⟨t, before, hash, expires, d', there, id, owner⟩
    · obtain rfl := List.mem_singleton.mp new
      obtain rfl := sound.unique there listed (id.trans own.symm)
      exact .inl ⟨hash, expires, owner⟩
  · rintro (⟨hash, expires, owner⟩ | ⟨t, stored, rest⟩)
    · exact ⟨row, List.mem_append_right _ (List.mem_singleton_self _), hash, expires, d, listed, own,
        owner⟩
    · exact ⟨t, List.mem_append_left _ stored, rest⟩

theorem stores_deleteDevice (sound : db.Sound hashToken generateToken generated) (owner : Int)
    (name : String) :
    (db.deleteDevice owner name).Stores hashToken token userId deviceId expiresAt ↔
      db.Stores hashToken token userId deviceId expiresAt ∧
        ¬ (owner = userId ∧ name = deviceId) := by
  constructor
  · rintro ⟨t, stored, hash, expires, d, listed, row, rfl, rfl⟩
    obtain ⟨listed, other⟩ := List.mem_filter.mp listed
    refine ⟨⟨t, List.mem_of_mem_filter stored, hash, expires, d, listed, row, rfl, rfl⟩, ?_⟩
    rintro ⟨rfl, rfl⟩
    simp [owns] at other
  · rintro ⟨⟨t, stored, hash, expires, d, listed, row, rfl, rfl⟩, other⟩
    have kept : owns owner name d = false := by
      rw [Bool.eq_false_iff]
      intro owned
      obtain ⟨same, same'⟩ := Bool.and_eq_true_iff.mp owned
      exact other ⟨(eq_of_beq same).symm, (eq_of_beq same').symm⟩
    refine ⟨t, List.mem_filter.mpr ⟨stored, ?_⟩, hash, expires, d,
      List.mem_filter.mpr ⟨listed, ?_⟩, row, rfl, rfl⟩
    · rw [Bool.not_eq_true', List.any_eq_false]
      intro d' listed' owned
      obtain ⟨owned, id⟩ := Bool.and_eq_true_iff.mp owned
      obtain rfl := sound.unique listed' listed ((eq_of_beq id).trans row.symm)
      exact absurd (owned.symm.trans kept) Bool.noConfusion
    · rw [kept, Bool.not_false]

/-- A token resolves exactly to what is stored for it and has not expired. -/
theorem resolve_eq_some_iff (sound : db.Sound hashToken generateToken generated) {now : Int64} :
    db.resolve hashToken token now = some (userId, deviceId) ↔
      ∃ expiresAt, db.Stores hashToken token userId deviceId expiresAt ∧
        expiresAt.all (now < ·) = true := by
  constructor
  · intro resolves
    obtain ⟨t, stored, d, listed, hash, fresh, id, same⟩ := of_resolve resolves
    obtain ⟨owner, name⟩ := Prod.mk.inj same
    exact ⟨t.expiresAt, ⟨t, stored, hash, rfl, d, listed, id, owner, name⟩, fresh⟩
  · rintro ⟨expiresAt, ⟨t, stored, hash, rfl, d, listed, id, rfl, rfl⟩, fresh⟩
    have live : db.live hashToken token now = true :=
      List.any_eq_true.mpr ⟨t, stored, decide_eq_true ⟨hash, fresh⟩⟩
    obtain ⟨owner, resolves⟩ := sound.resolve_of_live live
    obtain ⟨t', stored', d', listed', hash', -, id', rfl⟩ := of_resolve resolves
    obtain rfl := List.inj_on_of_nodup_map sound.hashed stored' stored (hash'.trans hash.symm)
    obtain rfl := sound.unique listed' listed (id'.trans id.symm)
    exact resolves

end DeviceDb
end ReachMyDevice
