import ReachMyDevice.Identity
import ReachMyDevice.LoginCalls

/-!
# Device tokens

Registering a device and refreshing its token are runs of single SQL
statements, and between any two of them those of other requests run. Only a
hash of a token is stored. The library's statements may fail.
-/
namespace ReachMyDevice

structure Device where
  id : Nat
  userId : Int
  deviceId : String
  name : String
  publicKey : String
  role : String
  createdAt : Int64
  deriving DecidableEq

structure DeviceTokenRow where
  devicePk : Nat
  tokenHash : String
  createdAt : Int64
  expiresAt : Option Int64
  deriving DecidableEq

/-- The tables `devices` and `device_tokens`. -/
structure DeviceDb where
  devices : List Device
  tokens : List DeviceTokenRow

structure RegisterDevice where
  deviceId : String
  name : String
  publicKey : String
  role : String := "both"

structure RefreshToken where
  deviceId : String
  publicKey : String
  timestamp : Int64
  signature : String

structure DeviceToken where
  token : String
  deviceId : String

namespace RefreshToken

def tokenRefreshTag : Bytes := utf8 "rmd-token-refresh-v1"

def tokenRefreshSkewSecs : Int64 := 120

def beBytes (t : Int64) : Bytes :=
  (List.range 8).map fun i => (t.toUInt64 >>> UInt64.ofNat (56 - 8 * i)).toUInt8

def message (publicKey : Bytes) (timestamp : Int64) : Bytes :=
  tokenRefreshTag ++ publicKey ++ beBytes timestamp

def signatureValid (crypto : Crypto) (publicKey : Bytes) (timestamp : Int64) (signature : Bytes) :
    Bool :=
  (crypto.verifyingKey publicKey).isOk &&
    (crypto.verify publicKey (message publicKey timestamp) signature).isOk

def decodeExact (n : Nat) (text : String) : Option Bytes :=
  (hexDecode text.toList).filter (·.length == n)

/-- What is checked before the database is asked. -/
def check (crypto : Crypto) (body : RefreshToken) (now : Int64) : Except AppError Unit :=
  match decodeExact 32 body.publicKey with
  | none => .error .unauthorized
  | some publicKey =>
    if deviceIdFromPublicKey crypto publicKey ≠ body.deviceId then .error .unauthorized
    else if tokenRefreshSkewSecs < (now - body.timestamp).abs then .error .unauthorized
    else match decodeExact 64 body.signature with
      | none => .error .unauthorized
      | some signature =>
        if signatureValid crypto publicKey body.timestamp signature then .ok ()
        else .error .unauthorized

end RefreshToken

/-- A request, with its user when it registers a device. -/
inductive TokenRequest
  | register (userId : Int) (body : RegisterDevice)
  | refresh (body : RefreshToken)

def TokenRequest.deviceId : TokenRequest → String
  | .register _ body => body.deviceId
  | .refresh body => body.deviceId

/-- The statement a request is at. -/
inductive TokenStage
  | selecting
  | storing (existing : Option Nat)
  | deleting (devicePk : Nat)
  | inserting (devicePk : Nat)
  | returned (result : Except AppError DeviceToken)
  /-- The client has gone away. -/
  | aborted

def TokenStage.done : TokenStage → Bool
  | .returned _ | .aborted => true
  | _ => false

structure TokenCall where
  request : TokenRequest
  stage : TokenStage

inductive TokenLabel
  | register (user : Except AppError Int) (body : RegisterDevice)
  | refresh (body : RefreshToken) (now : Int64)
  | select (i : Nat) (ok : Bool)
  | store (i : Nat) (ok : Bool) (now : Int64)
  | delete (i : Nat) (ok : Bool)
  | insert (i : Nat) (ok : Bool) (now : Int64)
  | abort (i : Nat)

namespace DeviceDb
variable (db : DeviceDb)

def find (deviceId : String) : Option Device := db.devices.find? (·.deviceId == deviceId)

/-- The row id that an insertion takes. -/
def nextId : Nat := (db.devices.map (·.id)).foldr max 0 + 1

def updateDevice (id : Nat) (body : RegisterDevice) : DeviceDb :=
  { db with devices := db.devices.map fun d => if d.id = id then
      { d with name := body.name, publicKey := body.publicKey, role := body.role } else d }

def insertDevice (userId : Int) (body : RegisterDevice) (now : Int64) : DeviceDb :=
  { db with devices := db.devices ++ [{
      id := db.nextId, userId, deviceId := body.deviceId, name := body.name
      publicKey := body.publicKey, role := body.role, createdAt := now }] }

def deleteTokens (devicePk : Nat) : DeviceDb :=
  { db with tokens := db.tokens.filter (·.devicePk ≠ devicePk) }

/-- The device must exist and the hash be new. -/
def admits (row : DeviceTokenRow) : Bool :=
  db.devices.any (·.id == row.devicePk) && db.tokens.all (·.tokenHash != row.tokenHash)

def insertToken (row : DeviceTokenRow) : DeviceDb := { db with tokens := db.tokens ++ [row] }

/-- `resolve_device_token`: the user and device a token stands for. -/
def resolve (hashToken : String → String) (token : String) (now : Int64) : Option (Int × String) :=
  db.tokens.findSome? fun t =>
    if t.tokenHash = hashToken token ∧ t.expiresAt.all (now < ·) then
      (db.devices.find? (·.id == t.devicePk)).map fun d => (d.userId, d.deviceId)
    else none

def count (devicePk : Nat) : Nat := db.tokens.countP (·.devicePk = devicePk)

end DeviceDb

/-- `generated` tokens have been drawn so far. -/
structure TokenServer where
  db : DeviceDb
  calls : List TokenCall
  generated : Nat

namespace TokenServer
variable (crypto : Crypto) (generateToken : Nat → String) (hashToken : String → String)
  (tokenTtlSecs : Option UInt64) (s : TokenServer)

def setStage (i : Nat) (c : TokenCall) (stage : TokenStage) : TokenServer :=
  { s with calls := s.calls.set i { c with stage } }

def addCall (c : TokenCall) : TokenServer := { s with calls := s.calls ++ [c] }

def fail : TokenStage := .returned (.error .db)

def selected (request : TokenRequest) : TokenStage :=
  match request with
  | .register userId body =>
    match s.db.find body.deviceId with
    | some d =>
      if d.userId ≠ userId then
        .returned (.error (.conflict "device already registered to another account"))
      else .storing (some d.id)
    | none => .storing none
  | .refresh body =>
    match s.db.find body.deviceId with
    | some d => .deleting d.id
    | none => .returned (.error .unauthorized)

/-- The row that is stored for the next token. -/
def tokenRow (devicePk : Nat) (now : Int64) : DeviceTokenRow where
  devicePk := devicePk
  tokenHash := hashToken (generateToken s.generated)
  createdAt := now
  expiresAt := tokenTtlSecs.map fun ttl => now + ttl.toInt64

def step : TokenLabel → Option TokenServer
  | .register user body =>
    match user with
    | .ok userId => some (s.addCall ⟨.register userId body, .selecting⟩)
    | .error _ => some s
  | .refresh body now =>
    match body.check crypto now with
    | .ok () => some (s.addCall ⟨.refresh body, .selecting⟩)
    | .error e => some (s.addCall ⟨.refresh body, .returned (.error e)⟩)
  | .select i ok => s.calls[i]?.bind fun c =>
      match c.stage with
      | .selecting => some (s.setStage i c (if ok then s.selected c.request else fail))
      | _ => none
  | .store i ok now => s.calls[i]?.bind fun c =>
      match c.stage, c.request with
      | .storing (some id), .register _ body =>
        if ok then some { s.setStage i c (.deleting id) with db := s.db.updateDevice id body }
        else some (s.setStage i c fail)
      | .storing none, .register userId body =>
        if ok ∧ s.db.find body.deviceId = none then
          some { s.setStage i c (.deleting s.db.nextId) with
            db := s.db.insertDevice userId body now }
        else some (s.setStage i c fail)
      | _, _ => none
  | .delete i ok => s.calls[i]?.bind fun c =>
      match c.stage with
      | .deleting pk =>
        if ok then some { s.setStage i c (.inserting pk) with db := s.db.deleteTokens pk }
        else some (s.setStage i c fail)
      | _ => none
  | .insert i ok now => s.calls[i]?.bind fun c =>
      match c.stage with
      | .inserting pk =>
        let row := s.tokenRow generateToken hashToken tokenTtlSecs pk now
        if ok ∧ s.db.admits row then
          some {
            s.setStage i c (.returned (.ok ⟨generateToken s.generated, c.request.deviceId⟩)) with
            db := s.db.insertToken row
            generated := s.generated + 1 }
        else some { s.setStage i c fail with generated := s.generated + 1 }
      | _ => none
  | .abort i => s.calls[i]?.bind fun c =>
      if c.stage.done then none else some (s.setStage i c .aborted)

end TokenServer
end ReachMyDevice
