import ReachMyDevice.Credentials

/-!
# Passkeys

A ceremony is two requests. What the first has started is kept in memory for
the second, while other requests read and write the table of credentials. The
ceremonies themselves, and what a passkey is, are the library's.
-/
namespace ReachMyDevice
open Machines SingleUse

/-- What `finish_passkey_authentication` returns. -/
structure AuthenticationResult where
  credId : Bytes
  counter : Nat
  needsUpdate : Bool

/-- The library of the ceremonies, with how an id and a passkey are written down. The number that
a start takes is what it draws at random. -/
structure Webauthn where
  Passkey : Type
  Registration : Type
  Authentication : Type
  Attestation : Type
  Assertion : Type
  credId : Passkey → Bytes
  counter : Passkey → Nat
  credIdB64 : Bytes → String
  toJson : Passkey → Option String
  fromJson : String → Option Passkey
  startRegistration : Nat → String → Option (List Bytes) → Nat → Option Registration
  finishRegistration : Attestation → Registration → Option Passkey
  startAuthentication : List Passkey → Nat → Option Authentication
  finishAuthentication : Assertion → Authentication → Option AuthenticationResult
  updateCredential : Passkey → AuthenticationResult → Passkey
  /-- The credential that has signed an assertion. -/
  signer : Assertion → Bytes

/-- What is relied upon. -/
structure Webauthn.Lawful (wa : Webauthn) : Prop where
  signed : ∀ credential auth result, wa.finishAuthentication credential auth = some result →
    result.credId = wa.signer credential
  stored : ∀ passkey json, wa.toJson passkey = some json → wa.fromJson json = some passkey
  encoded : Function.Injective wa.credIdB64
  same : ∀ passkey result, wa.credId (wa.updateCredential passkey result) = wa.credId passkey
  kept : ∀ passkey result, wa.counter passkey ≤ wa.counter (wa.updateCredential passkey result)
  advanced : ∀ passkey result, wa.credId passkey = result.credId →
    result.counter ≤ wa.counter (wa.updateCredential passkey result)

/-- A row of `webauthn_credentials`. -/
structure CredentialRow where
  id : Nat
  userId : Int
  credentialId : String
  passkey : String
  name : Option String
  createdAt : Int64
  lastUsedAt : Option Int64

/-- `WHERE user_id = ? AND credential_id = ?`. -/
def CredentialRow.isOf (userId : Int) (credentialId : String) (row : CredentialRow) : Bool :=
  row.userId == userId && row.credentialId == credentialId

/-- `WHERE id = ? AND user_id = ?`. -/
def CredentialRow.hit (id : Nat) (userId : Int) (row : CredentialRow) : Bool :=
  row.id == id && row.userId == userId

/-- A request; `user` is what `authed_user` says of its header. -/
inductive PasskeyRequest (wa : Webauthn)
  | registerStart (user : Except AppError Int)
  | registerFinish (user : Except AppError Int) (state : String) (name : Option String)
      (credential : wa.Attestation)
  | loginStart (username : String)
  | loginFinish (state : String) (credential : wa.Assertion)
  | deleteCredential (user : Except AppError Int) (id : Nat)

inductive PasskeyReply
  | started (state : String)
  | registered
  | signedIn (session username : String)
  | deleted (id : Nat)

/-- The statement a request is at. -/
inductive PasskeyStage (wa : Webauthn)
  | arrived
  | authed (userId : Int)
  | named (userId : Int) (username : String)
  | loaded (userId : Int) (username : String) (passkeys : List wa.Passkey)
  | inserting (userId : Int) (credentialId json : String)
  | verified (userId : Int) (result : AuthenticationResult)
  /-- `json` is to replace what was read. -/
  | updating (userId : Int) (result : AuthenticationResult) (old json : String)
  | minting (userId : Int) (result : AuthenticationResult)
  | naming (userId : Int) (session : String)
  | returned (result : Except AppError PasskeyReply)
  /-- The client has gone away. -/
  | aborted

structure PasskeyCall (wa : Webauthn) where
  request : PasskeyRequest wa
  stage : PasskeyStage wa

structure PasskeyServer (wa : Webauthn) where
  creds : CredentialServer
  users : List (Int × String)
  rows : List CredentialRow
  reg : Store String (Int × wa.Registration)
  auth : Store String (Int × wa.Authentication)
  clock : Nat
  calls : List (PasskeyCall wa)

inductive PasskeyLabel (wa : Webauthn)
  | arrive (request : PasskeyRequest wa)
  | lookUp (i : Nat) (ok : Bool)
  | load (i : Nat) (ok : Bool)
  | start (i random now : Nat)
  | finish (i now : Nat)
  | insert (i : Nat) (ok : Bool) (now : Int64)
  | select (i : Nat) (ok : Bool)
  | update (i : Nat) (ok : Bool) (now : Int64)
  | mint (i : Nat) (ok : Bool) (now : Int64)
  | name (i : Nat) (ok : Bool)
  | delete (i : Nat) (ok : Bool)
  | abort (i : Nat)

/-- The stage a request starts at. -/
def PasskeyRequest.admitted {wa : Webauthn} : PasskeyRequest wa → PasskeyStage wa
  | .registerStart user | .registerFinish user _ _ _ | .deleteCredential user _ =>
    match user with
    | .ok userId => .authed userId
    | .error e => .returned (.error e)
  | .loginStart _ | .loginFinish _ _ => .arrived

namespace PasskeyStage
variable {wa : Webauthn}

def done : PasskeyStage wa → Bool
  | .returned _ | .aborted => true
  | _ => false

def fail (e : AppError) : PasskeyStage wa := .returned (.error e)

/-- `wa_err`. -/
def waErr : PasskeyStage wa := fail (.badRequest "passkey verification failed")

/-- The user and the assertion of a login that has yet to mint its session. -/
def asserted : PasskeyStage wa → Option (Int × AuthenticationResult)
  | .verified userId result | .updating userId result _ _ | .minting userId result =>
    some (userId, result)
  | _ => none

/-- The ceremony has been finished. -/
def finished : PasskeyStage wa → Bool
  | .inserting .. | .verified .. | .updating .. | .minting .. | .naming .. => true
  | .returned (.ok .registered) | .returned (.ok (.signedIn _ _)) => true
  | _ => false

end PasskeyStage

def chTtl : Nat := nanos 300

namespace PasskeyServer
variable {wa : Webauthn} (generateToken : Nat → String) (hashToken : String → String)
  (s : PasskeyServer wa)

def setStage (i : Nat) (c : PasskeyCall wa) (stage : PasskeyStage wa) : PasskeyServer wa :=
  { s with calls := s.calls.set i { c with stage } }

def usernameOf (userId : Int) : Option String :=
  (s.users.find? (·.1 == userId)).map (·.2)

def userNamed (username : String) : Option Int :=
  (s.users.find? (·.2 == username)).map (·.1)

def loadPasskeys (userId : Int) : List wa.Passkey :=
  (s.rows.filter (·.userId == userId)).filterMap fun row => wa.fromJson row.passkey

def nextToken : String := generateToken s.creds.tokens.generated

/-- The user and the name that a start is for. -/
def lookUp (c : PasskeyCall wa) (ok : Bool) : Option (PasskeyStage wa) :=
  match c.request, c.stage with
  | .registerStart _, .authed userId =>
    if ok then
      match s.usernameOf userId with
      | some username => some (.named userId username)
      | none => some (.fail .unauthorized)
    else some (.fail .db)
  | .loginStart username, .arrived =>
    if ok then
      match s.userNamed username with
      | some userId => some (.named userId username)
      | none => some (.fail .unauthorized)
    else some (.fail .db)
  | _, _ => none

def load (c : PasskeyCall wa) (ok : Bool) : Option (PasskeyStage wa) :=
  match c.stage with
  | .named userId username =>
    if ok then
      match c.request, s.loadPasskeys userId with
      | .loginStart _, [] => some (.fail .unauthorized)
      | _, passkeys => some (.loaded userId username passkeys)
    else some (.fail .db)
  | _ => none

/-- `put_reg`: the ceremony is kept under a token of its own. -/
def putReg (i : Nat) (c : PasskeyCall wa) (owner : Int) (reg : wa.Registration) (now : Nat) :
    PasskeyServer wa :=
  { s.setStage i c (.returned (.ok (.started (s.nextToken generateToken)))) with
    creds := s.creds.draw
    reg := s.reg.put now (s.nextToken generateToken) (owner, reg) (now + chTtl)
    clock := now }

/-- `put_auth`. -/
def putAuth (i : Nat) (c : PasskeyCall wa) (owner : Int) (auth : wa.Authentication) (now : Nat) :
    PasskeyServer wa :=
  { s.setStage i c (.returned (.ok (.started (s.nextToken generateToken)))) with
    creds := s.creds.draw
    auth := s.auth.put now (s.nextToken generateToken) (owner, auth) (now + chTtl)
    clock := now }

def excluded (passkeys : List wa.Passkey) : Option (List Bytes) :=
  if passkeys.isEmpty then none else some (passkeys.map wa.credId)

def start (i : Nat) (c : PasskeyCall wa) (random now : Nat) : Option (PasskeyServer wa) :=
  match c.request, c.stage with
  | .registerStart _, .loaded userId username passkeys =>
    match wa.startRegistration (userId % 2 ^ 64).toNat username (excluded passkeys) random with
    | some reg => some (s.putReg generateToken i c userId reg now)
    | none => some { s.setStage i c .waErr with clock := now }
  | .loginStart _, .loaded userId _ passkeys =>
    match wa.startAuthentication passkeys random with
    | some auth => some (s.putAuth generateToken i c userId auth now)
    | none => some { s.setStage i c .waErr with clock := now }
  | _, _ => none

/-- What a registration makes of the ceremony it has taken. -/
def attested (userId : Int) (credential : wa.Attestation)
    (taken : Option (Int × wa.Registration)) : PasskeyStage wa :=
  match taken with
  | none => .fail .unauthorized
  | some (owner, reg) =>
    if owner ≠ userId then .fail .unauthorized
    else match wa.finishRegistration credential reg with
      | none => .waErr
      | some passkey =>
        match wa.toJson passkey with
        | none => .fail .internal
        | some json => .inserting userId (wa.credIdB64 (wa.credId passkey)) json

/-- What a login makes of the ceremony it has taken. -/
def asserted (credential : wa.Assertion) (taken : Option (Int × wa.Authentication)) :
    PasskeyStage wa :=
  match taken with
  | none => .fail .unauthorized
  | some (userId, auth) =>
    match wa.finishAuthentication credential auth with
    | none => .waErr
    | some result => .verified userId result

def finish (i : Nat) (c : PasskeyCall wa) (now : Nat) : Option (PasskeyServer wa) :=
  match c.request, c.stage with
  | .registerFinish _ state _ credential, .authed userId => some {
      s.setStage i c (attested userId credential (s.reg.got now state)) with
      reg := s.reg.take state
      clock := now }
  | .loginFinish state credential, .arrived => some {
      s.setStage i c (asserted credential (s.auth.got now state)) with
      auth := s.auth.take state
      clock := now }
  | _, _ => none

def nextId : Nat := (s.rows.map (·.id)).foldr max 0 + 1

/-- The user must exist and the credential be new. -/
def admits (userId : Int) (credentialId : String) : Bool :=
  s.users.any (·.1 == userId) && s.rows.all (·.credentialId != credentialId)

def nameOf (c : PasskeyCall wa) : Option String :=
  match c.request with
  | .registerFinish _ _ name _ =>
    (name.map fun text => String.ofList (trim text.toList)).filter (· ≠ "")
  | _ => none

def newRow (c : PasskeyCall wa) (userId : Int) (credentialId json : String) (now : Int64) :
    CredentialRow where
  id := s.nextId
  userId := userId
  credentialId := credentialId
  passkey := json
  name := nameOf c
  createdAt := now
  lastUsedAt := none

def insert (i : Nat) (c : PasskeyCall wa) (ok : Bool) (now : Int64) : Option (PasskeyServer wa) :=
  match c.stage with
  | .inserting userId credentialId json =>
    if ok ∧ s.admits userId credentialId then
      some { s.setStage i c (.returned (.ok .registered)) with
        rows := s.rows ++ [s.newRow c userId credentialId json now] }
    else some (s.setStage i c (.fail .db))
  | _ => none

/-- The passkey of the credential that was asserted is read, to be replaced. -/
def select (c : PasskeyCall wa) (ok : Bool) : Option (PasskeyStage wa) :=
  match c.stage with
  | .verified userId result =>
    if result.needsUpdate then
      if ok then
        match s.rows.find? (·.isOf userId (wa.credIdB64 result.credId)) with
        | none => some (.minting userId result)
        | some row =>
          match (wa.fromJson row.passkey).bind fun pk =>
              wa.toJson (wa.updateCredential pk result) with
          | none => some (.minting userId result)
          | some json => some (.updating userId result row.passkey json)
      else some (.fail .db)
    else none
  | _ => none

def updateRow (userId : Int) (credentialId : String) (change : CredentialRow → CredentialRow) :
    List CredentialRow :=
  s.rows.map fun row => if row.isOf userId credentialId then change row else row

/-- An error of the database is ignored. -/
def update (i : Nat) (c : PasskeyCall wa) (ok : Bool) (now : Int64) : Option (PasskeyServer wa) :=
  match c.stage with
  | .updating userId result _ json => some {
      s.setStage i c (.minting userId result) with
      rows := if ok then s.updateRow userId (wa.credIdB64 result.credId) fun row =>
        { row with passkey := json, lastUsedAt := some now } else s.rows }
  | .verified userId result =>
    if result.needsUpdate then none
    else some {
      s.setStage i c (.minting userId result) with
      rows := if ok then s.updateRow userId (wa.credIdB64 result.credId) fun row =>
        { row with lastUsedAt := some now } else s.rows }
  | _ => none

def mint (i : Nat) (c : PasskeyCall wa) (ok : Bool) (now : Int64) : Option (PasskeyServer wa) :=
  match c.stage with
  | .minting userId _ =>
    let minted := s.creds.mintUserSession generateToken hashToken userId ok now
    some { s.setStage i c (match minted.1 with
        | .ok session => .naming userId session
        | .error e => .fail e) with
      creds := minted.2 }
  | _ => none

def name (c : PasskeyCall wa) (ok : Bool) : Option (PasskeyStage wa) :=
  match c.stage with
  | .naming userId session =>
    if ok then
      match s.usernameOf userId with
      | some username => some (.returned (.ok (.signedIn session username)))
      | none => some (.fail .unauthorized)
    else some (.fail .db)
  | _ => none

def delete (i : Nat) (c : PasskeyCall wa) (ok : Bool) : Option (PasskeyServer wa) :=
  match c.request, c.stage with
  | .deleteCredential _ id, .authed userId =>
    if ok then
      some { s.setStage i c (if s.rows.any (·.hit id userId) then .returned (.ok (.deleted id))
          else .fail .notFound) with
        rows := s.rows.filter (!·.hit id userId) }
    else some (s.setStage i c (.fail .db))
  | _, _ => none

/-- The clock does not go back. -/
def step : PasskeyLabel wa → Option (PasskeyServer wa)
  | .arrive request => some { s with calls := s.calls ++ [⟨request, request.admitted⟩] }
  | .lookUp i ok => s.calls[i]?.bind fun c => (s.lookUp c ok).map (s.setStage i c)
  | .load i ok => s.calls[i]?.bind fun c => (s.load c ok).map (s.setStage i c)
  | .start i random now => s.calls[i]?.bind fun c =>
      if s.clock ≤ now then s.start generateToken i c random now else none
  | .finish i now => s.calls[i]?.bind fun c => if s.clock ≤ now then s.finish i c now else none
  | .insert i ok now => s.calls[i]?.bind fun c => s.insert i c ok now
  | .select i ok => s.calls[i]?.bind fun c => (s.select c ok).map (s.setStage i c)
  | .update i ok now => s.calls[i]?.bind fun c => s.update i c ok now
  | .mint i ok now => s.calls[i]?.bind fun c => s.mint generateToken hashToken i c ok now
  | .name i ok => s.calls[i]?.bind fun c => (s.name c ok).map (s.setStage i c)
  | .delete i ok => s.calls[i]?.bind fun c => s.delete i c ok
  | .abort i => s.calls[i]?.bind fun c =>
      if c.stage.done then none else some (s.setStage i c .aborted)

/-- Nobody has a passkey yet. -/
def machine (wa : Webauthn) (generateToken : Nat → String) (hashToken : String → String) :
    Machine (PasskeyServer wa) (PasskeyLabel wa) where
  init s := ∃ users clock, s = {
    creds := ⟨⟨⟨[], []⟩, [], 0⟩, []⟩, users, rows := [], reg := fun _ => none, auth := fun _ => none
    clock, calls := [] }
  step s l := s.step generateToken hashToken l

end PasskeyServer
end ReachMyDevice
