import Mathlib.Data.List.MinMax
import Mathlib.Data.List.Nodup
import ReachMyDevice.TokenRotation

/-!
# The device registry

Registrations, refreshes and deletions, statement by statement. A deleted row
takes its tokens with it, and its id goes to a later row when it was the largest.
-/
namespace ReachMyDevice
open Machines

/-- The account that authenticated a request; a refresh has none. -/
def TokenRequest.account : TokenRequest → Option Int
  | .register userId _ => some userId
  | .refresh _ => none

/-- The row id that a request has read or been given, and has yet to use. -/
def TokenStage.devicePk : TokenStage → Option Nat
  | .storing existing => existing
  | .deleting pk | .inserting pk => some pk
  | .selecting | .returned _ | .aborted => none

def TokenStage.failed : TokenStage → Bool
  | .returned (.error _) | .aborted => true
  | _ => false

theorem TokenStage.devicePk_of_failed {stage : TokenStage} (h : stage.failed = true) :
    stage.devicePk = none := by
  cases stage with
  | returned result => rfl
  | aborted => rfl
  | selecting | storing | deleting | inserting => cases h

theorem TokenStage.ne_ok_of_failed {stage : TokenStage} (h : stage.failed = true)
    (token : DeviceToken) : stage ≠ .returned (.ok token) := by
  rintro rfl
  cases h

/-- What was checked of a request before the database is asked. -/
def TokenRequest.Checked (crypto : Crypto) : TokenRequest → Prop
  | .register _ _ => True
  | .refresh body => ∃ now, body.check crypto now = .ok ()

/-- The row is one that the request is about. -/
def Device.fits (d : Device) (request : TokenRequest) : Prop :=
  d.deviceId = request.deviceId ∧ ∀ userId, request.account = some userId → d.userId = userId

/-- The identity of a row, which an update leaves alone. -/
def Device.SameRow (d d' : Device) : Prop :=
  d'.id = d.id ∧ d'.userId = d.userId ∧ d'.deviceId = d.deviceId

theorem Device.SameRow.fits {d d' : Device} (same : d.SameRow d') {request : TokenRequest}
    (h : d.fits request) : d'.fits request :=
  ⟨same.2.2.trans h.1, fun userId account => same.2.1.trans (h.2 userId account)⟩

/-- Whom a token is for. -/
inductive Holder
  | session (userId : Int)
  | device (userId : Int) (deviceId : String)
  deriving DecidableEq

/-- What becomes of tokens. -/
inductive CredentialEvent
  | issued (token : String) (holder : Holder) (expiresAt : Option Int64)
  | rotated (deviceId : String)
  | deviceDeleted (userId : Int) (deviceId : String)
  | signedOut (token : String)
  deriving DecidableEq

inductive RegistryLabel
  | call (l : TokenLabel)
  | deleteDevice (user : Except AppError Int) (deviceId : String) (ok : Bool)

namespace DeviceDb
variable (db : DeviceDb)

def owns (userId : Int) (deviceId : String) (d : Device) : Bool :=
  d.userId == userId && d.deviceId == deviceId

/-- The foreign key of `device_tokens` cascades. -/
def deleteDevice (userId : Int) (deviceId : String) : DeviceDb where
  devices := db.devices.filter fun d => !owns userId deviceId d
  tokens := db.tokens.filter fun t =>
    !db.devices.any fun d => owns userId deviceId d && d.id == t.devicePk

/-- A token is stored and has not expired. -/
def live (hashToken : String → String) (token : String) (now : Int64) : Bool :=
  db.tokens.any fun t => t.tokenHash = hashToken token ∧ t.expiresAt.all (now < ·)

theorem lt_nextId {d : Device} (member : d ∈ db.devices) : d.id < db.nextId :=
  Nat.lt_succ_of_le (List.le_max_of_le' 0 (List.mem_map_of_mem member) (Nat.le_refl _))

theorem updateDevice_row {id : Nat} {body : RegisterDevice} {d' : Device}
    (member : d' ∈ (db.updateDevice id body).devices) : ∃ d ∈ db.devices, d.SameRow d' := by
  obtain ⟨d, listed, rfl⟩ := List.mem_map.mp member
  refine ⟨d, listed, ?_⟩
  split
  · exact ⟨rfl, rfl, rfl⟩
  · exact ⟨rfl, rfl, rfl⟩

theorem updateDevice_map {α : Type} (id : Nat) (body : RegisterDevice) (f : Device → α)
    (same : ∀ d : Device, f { d with name := body.name, publicKey := body.publicKey
                                     role := body.role } = f d) :
    (db.updateDevice id body).devices.map f = db.devices.map f := by
  rw [updateDevice, List.map_map]
  refine List.map_congr_left fun d _ => ?_
  simp only [Function.comp_apply]
  split
  · exact same d
  · rfl

variable {db} in
/-- What a token resolves to is the device of a row that is stored for it. -/
theorem of_resolve {hashToken : String → String} {token : String} {now : Int64}
    {owner : Int × String} (found : db.resolve hashToken token now = some owner) :
    ∃ t ∈ db.tokens, ∃ d ∈ db.devices, t.tokenHash = hashToken token ∧
      t.expiresAt.all (now < ·) = true ∧ d.id = t.devicePk ∧ (d.userId, d.deviceId) = owner := by
  obtain ⟨t, stored, here⟩ := List.exists_of_findSome?_eq_some found
  obtain ⟨matches_, here⟩ := Option.ite_none_right_eq_some.mp here
  obtain ⟨d, first, same⟩ := Option.map_eq_some_iff.mp here
  exact ⟨t, stored, d, List.mem_of_find?_eq_some first, matches_.1, matches_.2,
    eq_of_beq (List.find?_some (p := fun d : Device => d.id == t.devicePk) first), same⟩

/-- What holds of the tables whatever the requests do. -/
structure Sound (hashToken : String → String) (generateToken : Nat → String) (generated : Nat) :
    Prop where
  keyed : (db.devices.map (·.id)).Nodup
  named : (db.devices.map (·.deviceId)).Nodup
  hashed : (db.tokens.map (·.tokenHash)).Nodup
  tied : ∀ t ∈ db.tokens, ∃ d ∈ db.devices, d.id = t.devicePk
  drawn : ∀ t ∈ db.tokens, ∃ n < generated, t.tokenHash = hashToken (generateToken n)

namespace Sound
variable {db} {hashToken : String → String} {generateToken : Nat → String} {generated : Nat}

theorem unique (h : db.Sound hashToken generateToken generated) {d d' : Device}
    (one : d ∈ db.devices) (two : d' ∈ db.devices) (same : d.id = d'.id) : d = d' :=
  List.inj_on_of_nodup_map h.keyed one two same

/-- The row of a device is found by its name. -/
theorem find_eq (h : db.Sound hashToken generateToken generated) {d : Device}
    (listed : d ∈ db.devices) : db.find d.deviceId = some d := by
  cases found : db.find d.deviceId with
  | none =>
      have none_ := List.find?_eq_none.mp found d listed
      exact absurd (beq_self_eq_true d.deviceId) none_
  | some d' =>
      have same := List.find?_some (p := fun d' : Device => d'.deviceId == d.deviceId) found
      have listed' := List.mem_of_find?_eq_some found
      exact congrArg some (List.inj_on_of_nodup_map h.named listed' listed (eq_of_beq same))

theorem later (h : db.Sound hashToken generateToken generated) {generated' : Nat}
    (le : generated ≤ generated') : db.Sound hashToken generateToken generated' where
  keyed := h.keyed
  named := h.named
  hashed := h.hashed
  tied := h.tied
  drawn t stored := by
    obtain ⟨n, less, hash⟩ := h.drawn t stored
    exact ⟨n, Nat.lt_of_lt_of_le less le, hash⟩

theorem updateDevice (h : db.Sound hashToken generateToken generated) (id : Nat)
    (body : RegisterDevice) : (db.updateDevice id body).Sound hashToken generateToken generated where
  keyed := (db.updateDevice_map id body (·.id) fun _ => rfl) ▸ h.keyed
  named := (db.updateDevice_map id body (·.deviceId) fun _ => rfl) ▸ h.named
  hashed := h.hashed
  tied t stored := by
    obtain ⟨d, listed, same⟩ := h.tied t stored
    refine ⟨_, List.mem_map_of_mem listed, ?_⟩
    split <;> exact same
  drawn := h.drawn

theorem insertDevice (h : db.Sound hashToken generateToken generated) (userId : Int)
    {body : RegisterDevice} (absent : db.find body.deviceId = none) (now : Int64) :
    (db.insertDevice userId body now).Sound hashToken generateToken generated where
  keyed := by
    rw [DeviceDb.insertDevice, List.map_append, List.nodup_append]
    refine ⟨h.keyed, List.nodup_singleton _, ?_⟩
    intro id listed other last same
    obtain ⟨d, member, rfl⟩ := List.mem_map.mp listed
    rw [List.map_singleton, List.mem_singleton] at last
    exact Nat.ne_of_lt (db.lt_nextId member) (same.trans last)
  named := by
    rw [DeviceDb.insertDevice, List.map_append, List.nodup_append]
    refine ⟨h.named, List.nodup_singleton _, ?_⟩
    intro name listed other last same
    obtain ⟨d, member, rfl⟩ := List.mem_map.mp listed
    rw [List.map_singleton, List.mem_singleton] at last
    exact List.find?_eq_none.mp absent d member (beq_iff_eq.mpr (same.trans last))
  hashed := h.hashed
  tied t stored := by
    obtain ⟨d, listed, same⟩ := h.tied t stored
    exact ⟨d, List.mem_append_left _ listed, same⟩
  drawn := h.drawn

theorem deleteTokens (h : db.Sound hashToken generateToken generated) (devicePk : Nat) :
    (db.deleteTokens devicePk).Sound hashToken generateToken generated where
  keyed := h.keyed
  named := h.named
  hashed := h.hashed.sublist (List.filter_sublist.map _)
  tied t stored := h.tied t (List.mem_of_mem_filter stored)
  drawn t stored := h.drawn t (List.mem_of_mem_filter stored)

theorem insertToken (h : db.Sound hashToken generateToken generated) {row : DeviceTokenRow}
    (admits : db.admits row = true) (hash : row.tokenHash = hashToken (generateToken generated)) :
    (db.insertToken row).Sound hashToken generateToken (generated + 1) where
  keyed := h.keyed
  named := h.named
  hashed := by
    rw [DeviceDb.insertToken, List.map_append, List.nodup_append]
    refine ⟨h.hashed, List.nodup_singleton _, ?_⟩
    intro hash' listed other last same
    obtain ⟨t, stored, rfl⟩ := List.mem_map.mp listed
    rw [List.map_singleton, List.mem_singleton] at last
    have new := List.all_eq_true.mp (Bool.and_eq_true_iff.mp admits).2 t stored
    exact bne_iff_ne.mp new (same.trans last)
  tied t stored := by
    obtain old | new := List.mem_append.mp stored
    · exact h.tied t old
    · obtain rfl := List.mem_singleton.mp new
      obtain ⟨d, listed, same⟩ := List.any_eq_true.mp (Bool.and_eq_true_iff.mp admits).1
      exact ⟨d, listed, eq_of_beq same⟩
  drawn t stored := by
    obtain old | new := List.mem_append.mp stored
    · exact (h.later (Nat.le_succ _)).drawn t old
    · obtain rfl := List.mem_singleton.mp new
      exact ⟨generated, Nat.lt_succ_self _, hash⟩

theorem deleteDevice (h : db.Sound hashToken generateToken generated) (userId : Int)
    (deviceId : String) :
    (db.deleteDevice userId deviceId).Sound hashToken generateToken generated where
  keyed := h.keyed.sublist (List.filter_sublist.map _)
  named := h.named.sublist (List.filter_sublist.map _)
  hashed := h.hashed.sublist (List.filter_sublist.map _)
  tied t stored := by
    obtain ⟨stored, kept⟩ := List.mem_filter.mp stored
    obtain ⟨d, listed, same⟩ := h.tied t stored
    refine ⟨d, List.mem_filter.mpr ⟨listed, ?_⟩, same⟩
    rw [Bool.not_eq_true', List.any_eq_false] at kept
    have kept := kept d listed
    rw [beq_iff_eq.mpr same, Bool.and_true] at kept
    rwa [Bool.not_eq_true', ← Bool.not_eq_true]
  drawn t stored := h.drawn t (List.mem_of_mem_filter stored)

/-- A live token resolves. -/
theorem resolve_of_live (h : db.Sound hashToken generateToken generated) {token : String}
    {now : Int64} (alive : db.live hashToken token now = true) :
    ∃ owner, db.resolve hashToken token now = some owner := by
  refine Option.ne_none_iff_exists'.mp fun none_ => ?_
  obtain ⟨t, stored, matches_⟩ := List.any_eq_true.mp alive
  have none_ := List.findSome?_eq_none_iff.mp none_ t stored
  rw [if_pos (of_decide_eq_true matches_), Option.map_eq_none_iff] at none_
  obtain ⟨d, listed, same⟩ := h.tied t stored
  exact absurd (beq_iff_eq.mpr same) (List.find?_eq_none.mp none_ d listed)

end Sound
end DeviceDb

namespace TokenServer
variable (crypto : Crypto) (generateToken : Nat → String) (hashToken : String → String)
  (tokenTtlSecs : Option UInt64) (s : TokenServer)

/-- `delete_device`: a single statement. -/
def deleteDevice (user : Except AppError Int) (deviceId : String) (ok : Bool) :
    Except AppError Unit × TokenServer :=
  match user with
  | .error e => (.error e, s)
  | .ok userId =>
    if ok then
      (if s.db.devices.any (DeviceDb.owns userId deviceId) then .ok () else .error .notFound,
        { s with db := s.db.deleteDevice userId deviceId })
    else (.error .db, s)

def registryStep : RegistryLabel → Option TokenServer
  | .call l => s.step crypto generateToken hashToken tokenTtlSecs l
  | .deleteDevice user deviceId ok => some (s.deleteDevice user deviceId ok).2

def registry : Machine TokenServer RegistryLabel where
  init s := s = ⟨⟨[], []⟩, [], 0⟩
  step s l := s.registryStep crypto generateToken hashToken tokenTtlSecs l

/-- The account that a step is taken for. -/
def account : RegistryLabel → Option Int
  | .call (.register user _) => user.toOption
  | .call (.refresh _ _) => none
  | .call (.select i _) | .call (.store i _ _) | .call (.delete i _) | .call (.insert i _ _)
  | .call (.abort i) => s.calls[i]?.bind (·.request.account)
  | .deleteDevice user _ _ => user.toOption

/-- Whom a token that is issued to a request is for. -/
def holder : TokenRequest → Option Holder
  | .register userId body => some (.device userId body.deviceId)
  | .refresh body => (s.db.find body.deviceId).map fun d => .device d.userId body.deviceId

/-- Tokens are rotated only of a device that is still there. -/
def told : RegistryLabel → List CredentialEvent
  | .call (.delete i true) => (s.calls[i]?.map fun c =>
      match c.stage with
      | .deleting pk =>
        if s.db.devices.any (·.id == pk) then [.rotated c.request.deviceId] else []
      | _ => []).getD []
  | .call (.insert i ok now) => (s.calls[i]?.map fun c =>
      match c.stage with
      | .inserting pk =>
        let row := s.tokenRow generateToken hashToken tokenTtlSecs pk now
        if ok ∧ s.db.admits row then
          (s.holder c.request).toList.map fun holder =>
            .issued (generateToken s.generated) holder row.expiresAt
        else []
      | _ => []).getD []
  | .deleteDevice (.ok userId) deviceId true => [.deviceDeleted userId deviceId]
  | _ => []

/-- What a step does to the tables and to the call that takes it. -/
inductive Moves (l : RegistryLabel) (s' : TokenServer) : Prop
  | idle (told : s.told generateToken hashToken tokenTtlSecs l = [])
      (same : s' = s)
  | arrives (c : TokenCall)
      (told : s.told generateToken hashToken tokenTtlSecs l = [])
      (unused : c.stage.devicePk = none)
      (waits : ∀ token, c.stage ≠ .returned (.ok token))
      (checked : c.stage.failed = true ∨ c.request.Checked crypto) (same : s' = s.addCall c)
  | ends (i : Nat) (c : TokenCall) (stage : TokenStage) (found : s.calls[i]? = some c)
      (told : s.told generateToken hashToken tokenTtlSecs l = [])
      (failed : stage.failed = true) (db : s'.db = s.db)
      (calls : s'.calls = (s.setStage i c stage).calls) (generated : s.generated ≤ s'.generated)
  | selects (i : Nat) (c : TokenCall) (found : s.calls[i]? = some c)
      (told : s.told generateToken hashToken tokenTtlSecs l = [])
      (stage : c.stage = .selecting) (same : s' = s.setStage i c (s.selected c.request))
  | updates (i : Nat) (c : TokenCall) (id : Nat) (userId : Int) (body : RegisterDevice)
      (now : Int64) (label : l = .call (.store i true now)) (found : s.calls[i]? = some c)
      (stage : c.stage = .storing (some id)) (request : c.request = .register userId body)
      (same : s' = { s.setStage i c (.deleting id) with db := s.db.updateDevice id body })
  | creates (i : Nat) (c : TokenCall) (userId : Int) (body : RegisterDevice) (now : Int64)
      (label : l = .call (.store i true now)) (found : s.calls[i]? = some c)
      (stage : c.stage = .storing none) (request : c.request = .register userId body)
      (absent : s.db.find body.deviceId = none)
      (same : s' = { s.setStage i c (.deleting s.db.nextId) with
        db := s.db.insertDevice userId body now })
  | clears (i : Nat) (c : TokenCall) (devicePk : Nat) (found : s.calls[i]? = some c)
      (stage : c.stage = .deleting devicePk)
      (told : s.told generateToken hashToken tokenTtlSecs l =
        if s.db.devices.any (·.id == devicePk) then [.rotated c.request.deviceId] else [])
      (same : s' = { s.setStage i c (.inserting devicePk) with db := s.db.deleteTokens devicePk })
  | stores (i : Nat) (c : TokenCall) (devicePk : Nat) (now : Int64)
      (found : s.calls[i]? = some c) (stage : c.stage = .inserting devicePk)
      (admits : s.db.admits (s.tokenRow generateToken hashToken tokenTtlSecs devicePk now) = true)
      (told : s.told generateToken hashToken tokenTtlSecs l =
        (s.holder c.request).toList.map fun holder => .issued (generateToken s.generated) holder
          (s.tokenRow generateToken hashToken tokenTtlSecs devicePk now).expiresAt)
      (same : s' = { s.setStage i c
          (.returned (.ok ⟨generateToken s.generated, c.request.deviceId⟩)) with
        db := s.db.insertToken (s.tokenRow generateToken hashToken tokenTtlSecs devicePk now)
        generated := s.generated + 1 })
  | removes (userId : Int) (deviceId : String)
      (label : l = .deleteDevice (.ok userId) deviceId true)
      (same : s' = { s with db := s.db.deleteDevice userId deviceId })

variable {crypto generateToken hashToken tokenTtlSecs s}

/-- A statement has failed. -/
theorem Moves.fails {l : RegistryLabel} {i : Nat} {c : TokenCall} (found : s.calls[i]? = some c)
    (told : s.told generateToken hashToken tokenTtlSecs l = []) :
    s.Moves crypto generateToken hashToken tokenTtlSecs l (s.setStage i c fail) :=
  .ends i c fail found told rfl rfl rfl (Nat.le_refl _)

theorem Moves.of_store {i : Nat} {ok : Bool} {now : Int64} {s' : TokenServer}
    (stepped : s.step crypto generateToken hashToken tokenTtlSecs (.store i ok now) = some s') :
    s.Moves crypto generateToken hashToken tokenTtlSecs (.call (.store i ok now)) s' := by
  obtain ⟨c, found, taken⟩ := Option.bind_eq_some_iff.mp stepped
  split at taken
  · rename_i stage request
    split at taken
    · rename_i succeeds
      subst succeeds
      exact .updates i c _ _ _ now rfl found stage request (Option.some.inj taken).symm
    · cases taken
      exact .fails found rfl
  · rename_i stage request
    split at taken
    · rename_i succeeds
      obtain ⟨rfl, absent⟩ := succeeds
      exact .creates i c _ _ now rfl found stage request absent (Option.some.inj taken).symm
    · cases taken
      exact .fails found rfl
  · cases taken

theorem Moves.of_delete {i : Nat} {ok : Bool} {s' : TokenServer}
    (stepped : s.step crypto generateToken hashToken tokenTtlSecs (.delete i ok) = some s') :
    s.Moves crypto generateToken hashToken tokenTtlSecs (.call (.delete i ok)) s' := by
  obtain ⟨c, found, taken⟩ := Option.bind_eq_some_iff.mp stepped
  split at taken
  · rename_i pk stage
    cases ok with
    | true =>
        refine .clears i c pk found stage ?_ (Option.some.inj taken).symm
        simp only [told, found, stage, Option.map_some, Option.getD_some]
    | false =>
        cases taken
        exact .fails found rfl
  · cases taken

theorem Moves.of_insert {i : Nat} {ok : Bool} {now : Int64} {s' : TokenServer}
    (stepped : s.step crypto generateToken hashToken tokenTtlSecs (.insert i ok now) = some s') :
    s.Moves crypto generateToken hashToken tokenTtlSecs (.call (.insert i ok now)) s' := by
  obtain ⟨c, found, taken⟩ := Option.bind_eq_some_iff.mp stepped
  split at taken
  · rename_i pk stage
    dsimp only at taken
    split at taken
    · rename_i admitted
      refine .stores i c pk now found stage admitted.2 ?_ (Option.some.inj taken).symm
      simp only [told, found, stage, Option.map_some, Option.getD_some, if_pos admitted]
    · rename_i refused
      cases taken
      refine .ends i c fail found ?_ rfl rfl rfl (Nat.le_succ _)
      simp only [told, found, stage, Option.map_some, Option.getD_some, if_neg refused]
  · cases taken

theorem registryStep_moves {l : RegistryLabel} {s' : TokenServer}
    (stepped : s.registryStep crypto generateToken hashToken tokenTtlSecs l = some s') :
    s.Moves crypto generateToken hashToken tokenTtlSecs l s' := by
  cases l with
  | deleteDevice user deviceId ok =>
      simp only [registryStep, deleteDevice, Option.some.injEq] at stepped
      cases user with
      | error e => exact .idle rfl stepped.symm
      | ok userId =>
          cases ok with
          | false => exact .idle rfl stepped.symm
          | true => exact .removes userId deviceId rfl stepped.symm
  | call l =>
      cases l with
      | register user body =>
          simp only [registryStep, step] at stepped
          split at stepped
          · rename_i userId
            exact .arrives ⟨.register userId body, .selecting⟩ rfl rfl (by rintro token ⟨⟩)
              (.inr trivial) (Option.some.inj stepped).symm
          · exact .idle rfl (Option.some.inj stepped).symm
      | refresh body now =>
          simp only [registryStep, step] at stepped
          split at stepped
          · rename_i passed
            exact .arrives ⟨.refresh body, .selecting⟩ rfl rfl (by rintro token ⟨⟩)
              (.inr ⟨now, passed⟩) (Option.some.inj stepped).symm
          · rename_i e _
            exact .arrives ⟨.refresh body, .returned (.error e)⟩ rfl rfl (by rintro token ⟨⟩)
              (.inl rfl) (Option.some.inj stepped).symm
      | select i ok =>
          obtain ⟨c, found, taken⟩ := Option.bind_eq_some_iff.mp stepped
          split at taken
          · rename_i stage
            cases ok with
            | true => exact .selects i c found rfl stage (Option.some.inj taken).symm
            | false =>
                cases taken
                exact .fails found rfl
          · cases taken
      | store i ok now => exact .of_store stepped
      | delete i ok => exact .of_delete stepped
      | insert i ok now => exact .of_insert stepped
      | abort i =>
          obtain ⟨c, found, taken⟩ := Option.bind_eq_some_iff.mp stepped
          split at taken
          · cases taken
          · cases taken
            exact .ends i c .aborted found rfl rfl rfl rfl (Nat.le_refl _)

/-- At most one token is stored, under the hash of the next that is drawn. -/
theorem Moves.tokens {l : RegistryLabel} {s' : TokenServer}
    (moved : s.Moves crypto generateToken hashToken tokenTtlSecs l s') :
    s.generated ≤ s'.generated ∧ ∀ t ∈ s'.db.tokens, t ∈ s.db.tokens ∨
      (s.generated < s'.generated ∧ t.tokenHash = hashToken (generateToken s.generated)) := by
  cases moved with
  | idle told same => exact same ▸ ⟨Nat.le_refl _, fun _ stored => .inl stored⟩
  | arrives c told unused waits checked same =>
      exact same ▸ ⟨Nat.le_refl _, fun _ stored => .inl stored⟩
  | ends i c stage found told failed db calls generated =>
      exact ⟨generated, fun _ stored => .inl (db ▸ stored)⟩
  | selects i c found told stage same =>
      exact same ▸ ⟨Nat.le_refl _, fun _ stored => .inl stored⟩
  | updates i c id userId body now label found stage request same =>
      exact same ▸ ⟨Nat.le_refl _, fun _ stored => .inl stored⟩
  | creates i c userId body now label found stage request absent same =>
      exact same ▸ ⟨Nat.le_refl _, fun _ stored => .inl stored⟩
  | clears i c devicePk found stage told same =>
      exact same ▸ ⟨Nat.le_refl _, fun _ stored => .inl (List.mem_of_mem_filter stored)⟩
  | stores i c devicePk now found stage admits told same =>
      subst same
      refine ⟨Nat.le_succ _, fun t stored => ?_⟩
      obtain before | new := List.mem_append.mp stored
      · exact .inl before
      · exact .inr ⟨Nat.lt_succ_self _, congrArg DeviceTokenRow.tokenHash (List.mem_singleton.mp new)⟩
  | removes userId deviceId label same =>
      exact same ▸ ⟨Nat.le_refl _, fun _ stored => .inl (List.mem_of_mem_filter stored)⟩

end TokenServer
end ReachMyDevice
