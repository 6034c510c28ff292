import ReachMyDevice.Identity
import ReachMyDevice.LoginCalls

/-!
# Signing up

A request reads the setting, decides what it may do, and inserts the user with
one statement that checks again whether there is a user. Between the two other
requests run, and the operator may change the setting.
-/
namespace ReachMyDevice
open Machines

structure RegisterUser where
  username : String
  password : String
  bootstrap : Option String := none

structure UserRow where
  username : String
  passwordHash : String
  createdAt : Int64
  deriving DecidableEq

structure RegistrationConfig where
  allowOpenRegistration : Bool
  bootstrapToken : Option String

def boolStr (b : Bool) : String := if b then "true" else "false"

def parseBool (s : String) : Bool := s == "true" || s == "1"

/-- The statement a request is at. -/
inductive RegisterStage
  | reading
  | inserting (effectiveOpen allowBootstrap : Bool)
  | returned (result : Except AppError Unit)
  /-- The client has gone away. -/
  | aborted

structure RegisterCall where
  body : RegisterUser
  stage : RegisterStage

/-- The tables `users` and `settings`, the latter as the value of `open_registration`. -/
structure RegisterServer where
  users : List UserRow
  setting : Option String
  calls : List RegisterCall

inductive RegisterLabel
  | register (body : RegisterUser)
  | read (i : Nat) (ok : Bool)
  /-- `none`: the password cannot be hashed. -/
  | insert (i : Nat) (hash : Option String) (ok : Bool) (now : Int64)
  | abort (i : Nat)
  | setRegistration (enabled : Bool)

namespace RegisterUser

/-- It takes as long for each pair of one length. -/
def ctEq (a b : Bytes) : Bool :=
  if a.length ≠ b.length then false
  else ((a.zip b).foldl (fun diff xy => diff ||| (xy.1 ^^^ xy.2)) (0 : UInt8)) == 0

def check (body : RegisterUser) : Except AppError Unit :=
  if (trim body.username.toList).isEmpty || decide ((utf8 body.password).length < 8) then
    .error (.badRequest "username required; password must be at least 8 chars")
  else .ok ()

/-- A token is configured, and the request presents it. -/
def presents (config : RegistrationConfig) (body : RegisterUser) : Bool :=
  config.bootstrapToken.any fun expected =>
    (body.bootstrap.map fun t => ctEq (utf8 t) (utf8 expected)).getD false

/-- Whether the request may create a user at all, and the first one. -/
def gate (config : RegistrationConfig) (body : RegisterUser) (open_ : Bool) : Bool × Bool :=
  match config.bootstrapToken with
  | some _ => (open_ || body.presents config, body.presents config)
  | none => (open_, true)

end RegisterUser

namespace RegisterServer
variable (config : RegistrationConfig) (s : RegisterServer)

def registrationOpen : Bool := (s.setting.map parseBool).getD config.allowOpenRegistration

def setStage (i : Nat) (c : RegisterCall) (stage : RegisterStage) : RegisterServer :=
  { s with calls := s.calls.set i { c with stage } }

def addCall (c : RegisterCall) : RegisterServer := { s with calls := s.calls ++ [c] }

def gated (body : RegisterUser) : RegisterStage :=
  let (effectiveOpen, allowBootstrap) := body.gate config (s.registrationOpen config)
  if !effectiveOpen && !allowBootstrap then .returned (.error .registrationClosed)
  else .inserting effectiveOpen allowBootstrap

/-- `INSERT INTO users ... WHERE ((SELECT COUNT(*) FROM users) = 0 AND ? = 1) OR ? = 1`; none when
the name is taken, and else whether a row was inserted. -/
def createUserIfAllowed (username hash : String) (open_ allowBootstrap : Bool) (now : Int64) :
    Option (Bool × RegisterServer) :=
  if s.users.isEmpty && allowBootstrap || open_ then
    if s.users.any (·.username == username) then none
    else some (true, { s with users := s.users ++ [⟨username, hash, now⟩] })
  else some (false, s)

def step : RegisterLabel → Option RegisterServer
  | .register body =>
    match body.check with
    | .ok () => some (s.addCall ⟨body, .reading⟩)
    | .error e => some (s.addCall ⟨body, .returned (.error e)⟩)
  | .read i ok => s.calls[i]?.bind fun c =>
      match c.stage with
      | .reading => some (s.setStage i c (if ok then s.gated config c.body else .returned (.error .db)))
      | _ => none
  | .insert i hash ok now => s.calls[i]?.bind fun c =>
      match c.stage with
      | .inserting open_ allowBootstrap =>
        match hash with
        | none => some (s.setStage i c (.returned (.error .internal)))
        | some hash =>
          if ok then
            match s.createUserIfAllowed c.body.username hash open_ allowBootstrap now with
            | none =>
              some (s.setStage i c (.returned (.error (.conflict "username already taken"))))
            | some (true, s) => some (s.setStage i c (.returned (.ok ())))
            | some (false, s) => some (s.setStage i c (.returned (.error .registrationClosed)))
          else some (s.setStage i c (.returned (.error .db)))
      | _ => none
  | .abort i => s.calls[i]?.bind fun c =>
      match c.stage with
      | .reading | .inserting _ _ => some (s.setStage i c .aborted)
      | .returned _ | .aborted => none
  | .setRegistration enabled => some { s with setting := some (boolStr enabled) }

/-- Any users and any setting, before any request. -/
def machine : Machine RegisterServer RegisterLabel where
  init s := ∃ users setting, s = { users, setting, calls := [] }
  step := step config

end RegisterServer
end ReachMyDevice
