import ReachMyDevice.Credentials
import ReachMyDevice.Lib.Base64
import ReachMyDevice.Lib.Delimited
import ReachMyDevice.UserRegistration

/-!
# Signing in with a password

A password comes in the body of a login, in the body of a device's registration,
or in a header. All three are verified by `authenticate_user`, whose statements
`LoginCalls` interleaves with those of other logins; here it runs by itself.
-/
namespace ReachMyDevice

/-- `base64::engine::general_purpose::STANDARD` -/
structure Base64Engine where
  encode : Bytes → List Char
  decode : List Char → Option Bytes

/-- What a header value may have in it to be read as text. -/
def isVisibleAscii (c : Char) : Bool := (32 ≤ c.toNat && c.toNat < 127) || c == '\t'

def toStr (value : String) : Option String :=
  if value.toList.all isVisibleAscii then some value else none

namespace Base64Engine
variable (b64 : Base64Engine)

/-- What is encoded is read back, and can stand in a header. -/
structure Standard : Prop where
  decodes : ∀ bytes, b64.decode (b64.encode bytes) = some bytes
  visible : ∀ bytes, (b64.encode bytes).all isVisibleAscii = true

/-- The header that a client makes of its credentials. -/
def basicAuth (user pass : String) : String :=
  "Basic " ++ String.ofList (b64.encode (utf8 (user ++ ":" ++ pass)))

/-- `basic_auth`, of the server. -/
def parseBasic (authorization : Option String) : Except AppError (String × String) :=
  let parsed := do
    let v ← authorization.bind toStr
    let raw ← stripPrefix "Basic ".toList v.toList
    let decoded ← b64.decode raw
    let text ← fromUtf8 decoded
    let (user, pass) ← Delimited.splitOnce ':' text.toList
    some (String.ofList user, String.ofList pass)
  parsed.elim (.error .unauthorized) .ok

end Base64Engine

/-- The state that signing in reads. The users are found by their names. -/
structure SignInServer where
  users : String → Option (Int × String)
  throttle : LoginThrottle
  now : Nat
  credentials : CredentialServer

/-- Nobody has signed in yet. -/
def SignInServer.withUsers (users : String → Option (Int × String)) : SignInServer where
  users := users
  throttle := fun _ => none
  now := 0
  credentials := ⟨⟨⟨[], []⟩, [], 0⟩, []⟩

/-- How the calls of one sign-in end. -/
structure SignInIo where
  fetched : Bool
  panicked : Bool
  elapsed : Nat
  unix : Int64

structure LoginBody where
  username : String
  password : String

structure RegisterDeviceBody where
  username : Option String
  password : Option String

namespace SignInServer
variable (verify : String → String → Bool) (dummyPhc : String) (hashToken : String → String)
  (b64 : Base64Engine) (s : SignInServer) (io : SignInIo)

def authenticateUser (username password : String) : Except AppError Int × SignInServer :=
  match s.throttle.check username s.now with
  | .error retry => (.error (.tooManyRequests retry), s)
  | .ok () =>
    if io.fetched then
      let hash := ((s.users username).map Prod.snd).getD dummyPhc
      let ok := !io.panicked && verify password hash
      let later := { s with now := s.now + io.elapsed }
      match s.users username, ok with
      | some (id, _), true =>
        (.ok id, { later with throttle := s.throttle.recordSuccess username })
      | _, _ =>
        (.error .unauthorized,
          { later with throttle := s.throttle.recordFailure username later.now })
    else (.error .db, s)

/-- `login`, up to the session that it mints for the account. -/
def login (body : LoginBody) : Except AppError Int × SignInServer :=
  s.authenticateUser verify dummyPhc io body.username body.password

def authedUser (authorization : Option String) : Except AppError Int × SignInServer :=
  match bearerToken (authorization.bind toStr) with
  | some token =>
    ((s.credentials.userIdForSession hashToken token io.unix).elim (.error .unauthorized) .ok, s)
  | none =>
    match b64.parseBasic authorization with
    | .error e => (.error e, s)
    | .ok (username, password) => s.authenticateUser verify dummyPhc io username password

/-- `register_device`, up to the account that the device is registered for. -/
def registerDevice (authorization : Option String) (body : RegisterDeviceBody) :
    Except AppError Int × SignInServer :=
  if authorization.isSome then s.authedUser verify dummyPhc hashToken b64 io authorization
  else
    match body.username, body.password with
    | some u, some p => s.authenticateUser verify dummyPhc io u p
    | _, _ => (.error .unauthorized, s)

end SignInServer

inductive SignInPath
  | login
  | body
  | basic
  deriving DecidableEq

namespace SignInServer
variable (verify : String → String → Bool) (dummyPhc : String) (hashToken : String → String)
  (b64 : Base64Engine) (s : SignInServer) (io : SignInIo)

/-- Credentials, by one of the paths. -/
def via (username password : String) : SignInPath → Except AppError Int × SignInServer
  | .login => s.login verify dummyPhc io { username, password }
  | .body => s.registerDevice verify dummyPhc hashToken b64 io none
      { username := some username, password := some password }
  | .basic => s.registerDevice verify dummyPhc hashToken b64 io
      (some (b64.basicAuth username password)) { username := none, password := none }

end SignInServer

/-- What is asked of the paths, for a name and a password. -/
structure SignInAgrees (verify : String → String → Bool) (dummyPhc : String)
    (hashToken : String → String) (b64 : Base64Engine) (username password : String) : Prop where
  same : ∀ s io path, SignInServer.via verify dummyPhc hashToken b64 s io username password path =
    SignInServer.via verify dummyPhc hashToken b64 s io username password .login
  usable : ∀ (s : SignInServer) (io : SignInIo) (id : Int) (hash : String),
    s.users username = some (id, hash) → verify password hash = true →
      s.throttle.locked username s.now = false → io.fetched = true → io.panicked = false →
        ∀ path, (s.via verify dummyPhc hashToken b64 io username password path).1 = .ok id
  own : ∀ (s : SignInServer) (io : SignInIo) path (id : Int),
    (s.via verify dummyPhc hashToken b64 io username password path).1 = .ok id →
      ∃ hash, s.users username = some (id, hash) ∧ verify password hash = true

variable {verify : String → String → Bool} {dummyPhc : String} {hashToken : String → String}
  {b64 : Base64Engine} {s : SignInServer} {io : SignInIo} {username password : String}

/-- Whom the common check lets in. -/
theorem SignInServer.authenticateUser_ok_iff {id : Int} :
    (s.authenticateUser verify dummyPhc io username password).1 = .ok id ↔
      s.throttle.locked username s.now = false ∧ io.fetched = true ∧ io.panicked = false ∧
        ∃ hash, s.users username = some (id, hash) ∧ verify password hash = true := by
  rw [← LoginThrottle.check_ok, authenticateUser]
  cases s.throttle.check username s.now with
  | error retry => simp
  | ok _ =>
      cases io.fetched with
      | false => simp
      | true =>
          cases row : s.users username with
          | none => simp
          | some found =>
              obtain ⟨other, hash⟩ := found
              cases verified : verify password hash <;> cases io.panicked <;> simp [verified]

namespace LoginServer
variable {permits : Nat} {t : LoginServer} {c : LoginCall}

theorem addCall_calls : (t.addCall c).calls[t.calls.length]? = some c :=
  List.getElem?_concat_length

theorem setStage_addCall (stage : LoginStage) :
    (t.addCall c).setStage t.calls.length c stage = t.addCall { c with stage } := by
  rw [setStage, addCall, addCall, List.set_append_right _ _ (Nat.le_refl _), Nat.sub_self]
  rfl

theorem verifying_addCall (quiet : c.stage.verifies = false) :
    (t.addCall c).verifying = t.verifying := by
  rw [verifying, addCall, List.countP_append, List.countP_singleton, quiet]
  rfl

theorem step_fetch (row : Option (Option (Int × String))) :
    (t.addCall ⟨username, password, .checked⟩).step permits verify dummyPhc
      (.fetch t.calls.length row) =
        some (t.addCall ⟨username, password, fetched dummyPhc row⟩) := by
  simp [step, addCall_calls, setStage_addCall]

theorem step_begin (room : t.verifying < permits) (id : Option Int) (hash : String) :
    (t.addCall ⟨username, password, .fetched id hash⟩).step permits verify dummyPhc
      (.begin t.calls.length) = some (t.addCall ⟨username, password, .verifying id hash⟩) := by
  have permit : (t.addCall ⟨username, password, .fetched id hash⟩).verifying < permits := by
    rwa [verifying_addCall rfl]
  simp [step, addCall_calls, setStage_addCall, permit]

theorem step_finish (id : Option Int) (hash : String) (panicked : Bool) :
    (t.addCall ⟨username, password, .verifying id hash⟩).step permits verify dummyPhc
      (.finish t.calls.length panicked) = some (t.addCall
        ⟨username, password, .verified id (!panicked && verify password hash)⟩) := by
  simp [step, addCall_calls, setStage_addCall]

theorem step_record {stage : LoginStage} {result : Except AppError Int}
    (outcome : stage.outcome = some result) :
    (t.addCall ⟨username, password, stage⟩).step permits verify dummyPhc
      (.record t.calls.length) = some ⟨t.now, t.recorded username result,
        t.calls ++ [⟨username, password, .returned result⟩]⟩ := by
  simp [step, addCall_calls, setStage_addCall, outcome]
  exact ⟨rfl, by cases result <;> rfl, rfl⟩

theorem step_tick (elapsed : Nat) : (t.addCall c).step permits verify dummyPhc (.tick elapsed) =
    some (({ t with now := t.now + elapsed } : LoginServer).addCall c) := rfl

variable (verify dummyPhc password) in
/-- What the password is compared with, and what comes of it. -/
theorem authenticateUser_evaluated (clock : s.now = t.now) (same : s.throttle = t.throttle)
    (free : s.throttle.check username s.now = .ok ()) (found : io.fetched = true) :
    ∃ id hash result, fetched dummyPhc (some (s.users username)) = .fetched id hash ∧
      (LoginStage.verified id (!io.panicked && verify password hash)).outcome = some result ∧
      s.authenticateUser verify dummyPhc io username password = (result, { s with
        now := t.now + io.elapsed
        throttle :=
          ({ t with now := t.now + io.elapsed } : LoginServer).recorded username result }) := by
  rw [SignInServer.authenticateUser, free]
  simp only [found, if_true, clock, same]
  cases row : s.users username with
  | none => exact ⟨none, dummyPhc, _, rfl, rfl, rfl⟩
  | some account =>
      obtain ⟨id, hash⟩ := account
      cases ok : (!io.panicked && verify password hash) with
      | false =>
          refine ⟨some id, hash, .error .unauthorized, rfl, by rw [ok]; rfl, ?_⟩
          simp only [Option.map_some, Option.getD_some, ok]
          rfl
      | true =>
          refine ⟨some id, hash, .ok id, rfl, by rw [ok]; rfl, ?_⟩
          simp only [Option.map_some, Option.getD_some, ok]
          rfl

/-- A login that no other one comes between does what the function does by itself. -/
theorem exists_run (room : t.verifying < permits) (clock : s.now = t.now)
    (same : s.throttle = t.throttle) {result : Except AppError Int} {after : SignInServer}
    (returns : s.authenticateUser verify dummyPhc io username password = (result, after)) :
    ∃ labels : List LoginLabel, labels.foldlM (step permits verify dummyPhc) t =
      some ⟨after.now, after.throttle, t.calls ++ [⟨username, password, .returned result⟩]⟩ := by
  have enters : t.step permits verify dummyPhc (.call username password) =
      some (t.addCall ⟨username, password, t.entered username⟩) := rfl
  cases free : s.throttle.check username s.now with
  | error retry =>
      have stands : t.entered username = .returned (.error (.tooManyRequests retry)) := by
        rw [entered, ← clock, ← same, free]
      rw [SignInServer.authenticateUser, free] at returns
      cases returns
      refine ⟨[.call username password], ?_⟩
      rw [List.foldlM_cons, enters, stands, clock, same]
      rfl
  | ok _ =>
      have stands : t.entered username = .checked := by rw [entered, ← clock, ← same, free]
      cases found : io.fetched with
      | false =>
          rw [SignInServer.authenticateUser, free] at returns
          simp only [found] at returns
          cases returns
          refine ⟨[.call username password, .fetch t.calls.length none], ?_⟩
          rw [List.foldlM_cons, enters, stands, Option.bind_eq_bind, Option.bind_some,
            List.foldlM_cons, step_fetch, clock, same]
          rfl
      | true =>
          obtain ⟨id, hash, verdict, fetches, outcome, evaluated⟩ :=
            authenticateUser_evaluated verify dummyPhc password clock same free found
          rw [evaluated] at returns
          cases returns
          refine ⟨[.call username password, .fetch t.calls.length (some (s.users username)),
            .begin t.calls.length, .finish t.calls.length io.panicked, .tick io.elapsed,
            .record t.calls.length], ?_⟩
          simp only [List.foldlM_cons, List.foldlM_nil, Option.bind_eq_bind, enters, stands,
            Option.bind_some, step_fetch, fetches, step_begin room, step_finish, step_tick]
          exact congrArg (·.bind some) (step_record outcome)

end LoginServer

/-! ## What the server reads in the header of a client -/

namespace Base64Engine

theorem toList_basicAuth : (b64.basicAuth username password).toList =
    "Basic ".toList ++ b64.encode (utf8 (username ++ ":" ++ password)) := by
  rw [basicAuth, String.toList_append]
  exact congrArg _ String.toList_ofList

theorem Standard.toStr_basicAuth (standard : b64.Standard) :
    toStr (b64.basicAuth username password) = some (b64.basicAuth username password) := by
  have visible : (b64.basicAuth username password).toList.all isVisibleAscii = true := by
    rw [toList_basicAuth, List.all_append, standard.visible]
    rfl
  rw [toStr, if_pos visible]

/-- It is not taken for a token. -/
theorem Standard.bearerToken_basicAuth (standard : b64.Standard) :
    bearerToken ((some (b64.basicAuth username password)).bind toStr) = none := by
  rw [Option.bind_some, standard.toStr_basicAuth, bearerToken, Option.bind_some, toList_basicAuth]
  rfl

theorem Standard.parseBasic_basicAuth (standard : b64.Standard) :
    b64.parseBasic (some (b64.basicAuth username password)) =
      (Delimited.splitOnce ':' (username.toList ++ ':' :: password.toList)).elim
        (.error .unauthorized) fun parts => .ok (String.ofList parts.1, String.ofList parts.2) := by
  have text : (username ++ ":" ++ password).toList = username.toList ++ ':' :: password.toList := by
    rw [String.toList_append, String.toList_append, List.append_assoc]
    rfl
  have raw : stripPrefix "Basic ".toList (b64.basicAuth username password).toList =
      some (b64.encode (utf8 (username ++ ":" ++ password))) := by
    rw [toList_basicAuth]
    rfl
  rw [parseBasic, Option.bind_some, standard.toStr_basicAuth]
  simp only [Option.bind_eq_bind, Option.bind_some, raw, standard.decodes, fromUtf8_utf8, text]
  cases Delimited.splitOnce ':' (username.toList ++ ':' :: password.toList) <;> rfl

/-- A name without a separator is read as it is. -/
theorem Standard.parseBasic_plain (standard : b64.Standard) (plain : ':' ∉ username.toList) :
    b64.parseBasic (some (b64.basicAuth username password)) = .ok (username, password) := by
  rw [standard.parseBasic_basicAuth, Delimited.splitOnce_append plain]
  simp

variable (password) in
/-- Of a name with a separator only the front is read. -/
theorem Standard.parseBasic_cut (standard : b64.Standard) (cut : ':' ∈ username.toList) :
    ∃ front rest, front ≠ username ∧
      b64.parseBasic (some (b64.basicAuth username password)) = .ok (front, rest) := by
  obtain ⟨a, b, whole, first⟩ := List.eq_append_cons_of_mem cut
  have parts : Delimited.splitOnce ':' (username.toList ++ ':' :: password.toList) =
      some (a, b ++ ':' :: password.toList) := by
    rw [whole, List.append_assoc, List.cons_append]
    exact Delimited.splitOnce_append first _
  refine ⟨String.ofList a, String.ofList (b ++ ':' :: password.toList), ?_, ?_⟩
  · intro same
    have lists := congrArg String.toList same
    rw [String.toList_ofList] at lists
    exact first (lists ▸ cut)
  · rw [standard.parseBasic_basicAuth, parts]
    rfl

end Base64Engine

theorem SignInServer.via_basic (standard : b64.Standard) {user pass : String}
    (read : b64.parseBasic (some (b64.basicAuth username password)) = .ok (user, pass)) :
    s.via verify dummyPhc hashToken b64 io username password .basic =
      s.authenticateUser verify dummyPhc io user pass := by
  change s.authedUser verify dummyPhc hashToken b64 io _ = _
  rw [authedUser, standard.bearerToken_basicAuth]
  dsimp only
  rw [read]

/-- The paths agree exactly on the names without a colon. -/
theorem signIn_agrees_iff (standard : b64.Standard)
    (hashes : ∃ hash, verify password hash = true) :
    SignInAgrees verify dummyPhc hashToken b64 username password ↔ ':' ∉ username.toList := by
  constructor
  · intro agrees cut
    obtain ⟨hash, verifies⟩ := hashes
    obtain ⟨front, rest, other, read⟩ := standard.parseBasic_cut password cut
    have signed := agrees.usable (.withUsers fun name => if name = username then some (1, hash)
      else none) ⟨true, false, 0, 0⟩ 1 hash (if_pos rfl) verifies rfl rfl rfl .basic
    rw [SignInServer.via_basic standard read] at signed
    obtain ⟨-, -, -, hash', row, -⟩ := SignInServer.authenticateUser_ok_iff.mp signed
    exact Option.some_ne_none _ (row.symm.trans (if_neg other))
  · intro plain
    have same (s io path) :
        SignInServer.via verify dummyPhc hashToken b64 s io username password path =
          s.authenticateUser verify dummyPhc io username password := by
      cases path with
      | login => rfl
      | body => rfl
      | basic => exact SignInServer.via_basic standard (standard.parseBasic_plain plain)
    refine ⟨fun s io path => same s io path, ?_, ?_⟩
    · intro s io id hash row verifies free fetched finished path
      rw [same]
      exact SignInServer.authenticateUser_ok_iff.mpr ⟨free, fetched, finished, hash, row, verifies⟩
    · intro s io path id signed
      rw [same] at signed
      exact (SignInServer.authenticateUser_ok_iff.mp signed).2.2.2

/-! ## The engine itself -/

def standardEngine : Base64Engine where
  encode := Base64.encode
  decode := Base64.decode

theorem standardEngine_standard : standardEngine.Standard where
  decodes := Base64.decode_encode
  visible bytes := by
    have visible : Base64.alphabet.all isVisibleAscii = true := by decide +kernel
    refine List.all_eq_true.mpr fun c member => ?_
    obtain digit | rfl := Base64.encode_plain bytes c member
    · exact List.all_eq_true.mp visible c digit
    · rfl

theorem signIn_agrees_iff_ada :
    SignInAgrees (fun password hash => password == hash) "dummy" id standardEngine
      "ada" "correct horse" :=
  (signIn_agrees_iff standardEngine_standard ⟨"correct horse", by decide⟩).mpr (by decide)

/-- Two accounts that can be created. What the second one sends as Basic signs in to the first. -/
theorem basic_other_account :
    RegisterUser.check { username := "a", password := "b:password1" } = .ok () ∧
    RegisterUser.check { username := "a:b", password := "password1" } = .ok () ∧
    ∃ s io,
      (SignInServer.via (fun password hash => password == hash) "dummy" id standardEngine s io
        "a:b" "password1" .login).1 = .ok 2 ∧
      (SignInServer.via (fun password hash => password == hash) "dummy" id standardEngine s io
        "a:b" "password1" .basic).1 = .ok 1 ∧
      ¬SignInAgrees (fun password hash => password == hash) "dummy" id standardEngine
        "a:b" "password1" := by
  let s : SignInServer := .withUsers fun name =>
    if name = "a" then some (1, "b:password1")
    else if name = "a:b" then some (2, "password1") else none
  let io : SignInIo := ⟨true, false, 0, 0⟩
  have read : standardEngine.parseBasic (some (standardEngine.basicAuth "a:b" "password1")) =
      .ok ("a", "b:password1") := by
    rw [standardEngine_standard.parseBasic_basicAuth]
    decide
  have basic : (SignInServer.via (fun password hash => password == hash) "dummy" id
      standardEngine s io "a:b" "password1" .basic).1 = .ok 1 := by
    rw [SignInServer.via_basic standardEngine_standard read]
    decide
  refine ⟨by decide, by decide, s, io, by decide, basic, fun agrees => ?_⟩
  obtain ⟨hash, row, -⟩ := agrees.own s io .basic 1 basic
  have second : s.users "a:b" = some (2, "password1") := by decide
  cases second.symm.trans row

end ReachMyDevice
