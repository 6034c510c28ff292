import ReachMyDevice.Credentials

/-!
# The life of a credential

Requests overlap, statement by statement. What the tables hold is what the run has
issued and not ended since, while no row takes an id that another request holds.
-/
namespace ReachMyDevice
open Machines Histories

namespace DeviceDb
variable {db : DeviceDb} {hashToken : String → String} {generateToken : Nat → String}
  {generated : Nat}

/-- A row that is gone has no tokens. -/
theorem deleteTokens_of_gone (sound : db.Sound hashToken generateToken generated) {devicePk : Nat}
    (gone : db.devices.any (·.id == devicePk) = false) : db.deleteTokens devicePk = db := by
  have all : db.tokens.filter (·.devicePk ≠ devicePk) = db.tokens := by
    refine List.filter_eq_self.mpr fun t stored => decide_eq_true fun same => ?_
    obtain ⟨d, listed, tied⟩ := sound.tied t stored
    exact List.any_eq_false.mp gone d listed (beq_iff_eq.mpr (tied.trans same))
  rw [deleteTokens, all]

end DeviceDb

namespace TokenServer
variable {generateToken : Nat → String} {hashToken : String → String} {s : TokenServer}

/-- More tokens may have been drawn for other tables. -/
theorem Held.later (h : s.Held generateToken hashToken) {generated : Nat}
    (le : s.generated ≤ generated) :
    ({ s with generated } : TokenServer).Held generateToken hashToken where
  sound := h.sound.later le
  calls c member := (h.calls c member).of_rows (rows_refl _) (fun _ stored => stored) le

end TokenServer

theorem stands_nil {token : String} {holder : Holder} {expiresAt : Option Int64} :
    ¬ Stands [] token holder expiresAt := not_since_nil

theorem stands_concat_iff {history : List CredentialEvent} {e : CredentialEvent} {token : String}
    {holder : Holder} {expiresAt : Option Int64} :
    Stands (history ++ [e]) token holder expiresAt ↔
      e = .issued token holder expiresAt ∨
        Stands history token holder expiresAt ∧ ¬ e.ends token holder := since_concat_iff

namespace CredentialServer
variable (crypto : Crypto) (generateToken : Nat → String) (hashToken : String → String)
  (tokenTtlSecs : Option UInt64)

def machine : Machine CredentialServer CredentialLabel where
  init s := s = ⟨⟨⟨[], []⟩, [], 0⟩, []⟩
  step s l := s.step crypto generateToken hashToken tokenTtlSecs l

def recorded : Machine (CredentialServer × List CredentialEvent) CredentialLabel :=
  (machine crypto generateToken hashToken tokenTtlSecs).recording (fun _ => [])
    fun s l _ history => history ++ s.told generateToken hashToken tokenTtlSecs l

/-- A text that is presented does not have the hash of another one that was drawn. -/
def Collisionless (s : CredentialServer) (token : String) : Prop :=
  ∀ n < s.tokens.generated, hashToken token = hashToken (generateToken n) → token = generateToken n

/-- No row is created under an id that another request holds, and tokens that are signed out do not
collide. -/
def Unreused (s : CredentialServer) : CredentialLabel → Prop
  | .registry l => s.tokens.Unreused l
  | .revokeUserSession token _ => s.Collisionless generateToken hashToken token
  | .login .. => True

/-- The table of sessions, as far as it goes by itself. -/
structure SessionsSound (s : CredentialServer) : Prop where
  hashed : (s.sessions.map (·.tokenHash)).Nodup
  drawn : ∀ r ∈ s.sessions, ∃ n < s.tokens.generated, r.tokenHash = hashToken (generateToken n)
  apart : ∀ r ∈ s.sessions, ∀ t ∈ s.db.tokens, r.tokenHash ≠ t.tokenHash

/-- A session that is stored for a user. -/
def StoresSession (s : CredentialServer) (token : String) (userId : Int)
    (expiresAt : Option Int64) : Prop :=
  ∃ r ∈ s.sessions, r.tokenHash = hashToken token ∧ r.userId = userId ∧
    some r.expiresAt = expiresAt

structure Kept (s : CredentialServer) (history : List CredentialEvent) : Prop where
  held : s.tokens.Held generateToken hashToken
  sound : s.SessionsSound generateToken hashToken
  devices : ∀ token, s.Collisionless generateToken hashToken token →
    ∀ userId deviceId expiresAt, s.db.Stores hashToken token userId deviceId expiresAt ↔
      Stands history token (.device userId deviceId) expiresAt
  sessions : ∀ token, s.Collisionless generateToken hashToken token →
    ∀ userId expiresAt, s.StoresSession hashToken token userId expiresAt ↔
      Stands history token (.session userId) expiresAt

variable {crypto generateToken hashToken tokenTtlSecs} {s s' : CredentialServer}
  {history : List CredentialEvent}

theorem SessionsSound.of_tokens (h : s.SessionsSound generateToken hashToken) {t : TokenServer}
    (tokens : ∀ row ∈ t.db.tokens, row ∈ s.db.tokens) (le : s.tokens.generated ≤ t.generated) :
    ({ s with tokens := t } : CredentialServer).SessionsSound generateToken hashToken where
  hashed := h.hashed
  drawn r stored := by
    obtain ⟨n, less, hash⟩ := h.drawn r stored
    exact ⟨n, Nat.lt_of_lt_of_le less le, hash⟩
  apart r stored row listed := h.apart r stored row (tokens row listed)

theorem Collisionless.earlier {token : String} {t : CredentialServer}
    (h : t.Collisionless generateToken hashToken token)
    (le : s.tokens.generated ≤ t.tokens.generated) : s.Collisionless generateToken hashToken token :=
  fun n less => h n (Nat.lt_of_lt_of_le less le)

/-- The row for which a call holds an id, and whom its token is for. -/
theorem Kept.row (h : s.Kept generateToken hashToken history) {i : Nat} {c : TokenCall}
    (found : s.tokens.calls[i]? = some c) {d : Device} (listed : d ∈ s.db.devices)
    (holds : c.stage.devicePk = some d.id) : d.deviceId = c.request.deviceId ∧
      s.tokens.holder c.request = some (.device d.userId d.deviceId) := by
  have member := List.mem_of_getElem? found
  obtain ⟨name, owner⟩ := (h.held.calls c member).holds d.id holds d listed rfl
  refine ⟨name, ?_⟩
  cases request : c.request with
  | register userId body =>
      rw [request] at name owner
      rw [name, owner userId rfl]
      rfl
  | refresh body =>
      rw [request] at name
      have find := h.held.sound.find_eq listed
      rw [name] at find
      rw [TokenServer.holder, name]
      exact congrArg (Option.map _) find

/-- An event that has to do with devices only says nothing of sessions. -/
theorem Kept.sessions_of_device (h : s.Kept generateToken hashToken history)
    {e : CredentialEvent} (issues : ∀ token userId expiresAt,
      e ≠ .issued token (.session userId) expiresAt)
    (ends_ : ∀ token userId, ¬ e.ends token (.session userId)) {token : String}
    (clear : s.Collisionless generateToken hashToken token) (userId : Int)
    (expiresAt : Option Int64) : s.StoresSession hashToken token userId expiresAt ↔
      Stands (history ++ [e]) token (.session userId) expiresAt := by
  rw [stands_concat_iff, or_iff_right (issues token userId expiresAt),
    and_iff_left (ends_ token userId)]
  exact h.sessions token clear userId expiresAt

/-- A step that tells nothing, and leaves what is stored for devices. -/
theorem Kept.quiet (h : s.Kept generateToken hashToken history) {t : TokenServer}
    (held : t.Held generateToken hashToken)
    (tokens : ∀ row ∈ t.db.tokens, row ∈ s.db.tokens) (le : s.tokens.generated ≤ t.generated)
    (devices : ∀ token userId deviceId expiresAt,
      t.db.Stores hashToken token userId deviceId expiresAt ↔
        s.db.Stores hashToken token userId deviceId expiresAt) :
    ({ s with tokens := t } : CredentialServer).Kept generateToken hashToken history where
  held := held
  sound := h.sound.of_tokens tokens le
  devices token clear userId deviceId expiresAt :=
    (devices token userId deviceId expiresAt).trans
      (h.devices token (clear.earlier le) userId deviceId expiresAt)
  sessions token clear := h.sessions token (clear.earlier le)

/-- No session has the hash of the next token. -/
theorem SessionsSound.insertToken
    (distinct : TokenHistory.Distinct generateToken hashToken (s.tokens.generated + 1))
    (h : s.SessionsSound generateToken hashToken) {t : TokenServer} {row : DeviceTokenRow}
    (hash : row.tokenHash = hashToken (generateToken s.tokens.generated))
    (db : t.db.tokens = s.db.tokens ++ [row]) (generated : t.generated = s.tokens.generated + 1) :
    ({ s with tokens := t } : CredentialServer).SessionsSound generateToken hashToken where
  hashed := h.hashed
  drawn r stored := by
    obtain ⟨n, less, drawn⟩ := h.drawn r stored
    exact ⟨n, generated ▸ Nat.lt_succ_of_lt less, drawn⟩
  apart r stored := by
    show ∀ row ∈ t.db.tokens, r.tokenHash ≠ row.tokenHash
    rw [db]
    refine Slots.forall_mem_concat (h.apart r stored) fun same => ?_
    obtain ⟨n, less, drawn⟩ := h.drawn r stored
    exact Nat.ne_of_lt less (distinct (Nat.lt_succ_of_lt less) (Nat.lt_succ_self _)
      (drawn.symm.trans (same.trans hash)))

/-- A token is stored for the device of its call, and so it is told. -/
theorem Kept.stores
    (distinct : TokenHistory.Distinct generateToken hashToken (s.tokens.generated + 1))
    (h : s.Kept generateToken hashToken history)
    {t : TokenServer} (held : t.Held generateToken hashToken) {d : Device}
    (listed : d ∈ s.db.devices) {now : Int64}
    (db : t.db = s.db.insertToken (s.tokens.tokenRow generateToken hashToken tokenTtlSecs d.id now))
    (generated : t.generated = s.tokens.generated + 1) :
    ({ s with tokens := t } : CredentialServer).Kept generateToken hashToken
      (history ++ [.issued (generateToken s.tokens.generated) (.device d.userId d.deviceId)
        (s.tokens.tokenRow generateToken hashToken tokenTtlSecs d.id now).expiresAt]) := by
  have tokens := congrArg DeviceDb.tokens db
  have le : s.tokens.generated ≤ t.generated := generated ▸ Nat.le_succ _
  refine ⟨held, h.sound.insertToken distinct rfl tokens generated, ?_, fun token clear =>
    h.sessions_of_device (by rintro _ _ _ ⟨⟩) (fun _ _ => id) (clear.earlier le)⟩
  intro token clear userId deviceId expiresAt
  rw [stands_concat_iff, and_iff_left (show ¬ CredentialEvent.ends _ _ _ from id),
    ← h.devices token (clear.earlier le)]
  show t.db.Stores hashToken token userId deviceId expiresAt ↔ _
  rw [db]
  refine (DeviceDb.stores_insertToken h.held.sound listed rfl).trans (or_congr_left ?_)
  constructor
  · rintro ⟨hash, rfl, rfl, rfl⟩
    rw [clear s.tokens.generated (generated ▸ Nat.lt_succ_self _) hash.symm]
  · intro same
    obtain ⟨rfl, owner, rfl⟩ := CredentialEvent.issued.inj same
    obtain ⟨rfl, rfl⟩ := Holder.device.inj owner
    exact ⟨rfl, rfl, rfl, rfl⟩

theorem Kept.registry (h : s.Kept generateToken hashToken history)
    {l : RegistryLabel} {t : TokenServer}
    (distinct : TokenHistory.Distinct generateToken hashToken t.generated)
    (met : s.tokens.Unreused l)
    (moved : s.tokens.Moves crypto generateToken hashToken tokenTtlSecs l t) :
    ({ s with tokens := t } : CredentialServer).Kept generateToken hashToken
      (history ++ s.tokens.told generateToken hashToken tokenTtlSecs l) := by
  have held := h.held.step distinct met moved
  cases moved with
  | idle told same =>
      subst same
      rw [told, List.append_nil]
      exact h
  | arrives c told unused waits checked same =>
      subst same
      rw [told, List.append_nil]
      exact h.quiet held (fun _ listed => listed) (Nat.le_refl _) fun _ _ _ _ => Iff.rfl
  | ends i c stage found told failed db calls generated =>
      rw [told, List.append_nil]
      refine h.quiet held ?_ generated ?_
      · intro row listed
        rw [db] at listed
        exact listed
      · intro token userId deviceId expiresAt
        rw [db]
  | selects i c found told stage same =>
      subst same
      rw [told, List.append_nil]
      exact h.quiet held (fun _ listed => listed) (Nat.le_refl _) fun _ _ _ _ => Iff.rfl
  | updates i c id userId body now label found stage request same =>
      subst same label
      have told : s.tokens.told generateToken hashToken tokenTtlSecs
        (.call (.store i true now)) = [] := rfl
      rw [told, List.append_nil]
      exact h.quiet held (fun _ listed => listed) (Nat.le_refl _)
        fun _ _ _ _ => DeviceDb.stores_updateDevice id body
  | creates i c userId body now label found stage request absent same =>
      subst same label
      have told : s.tokens.told generateToken hashToken tokenTtlSecs
        (.call (.store i true now)) = [] := rfl
      rw [told, List.append_nil]
      exact h.quiet held (fun _ listed => listed) (Nat.le_refl _)
        fun _ _ _ _ => DeviceDb.stores_insertDevice h.held.sound userId body now
  | clears i c devicePk found stage told same =>
      subst same
      rw [told]
      cases there : s.db.devices.any (·.id == devicePk) with
      | false =>
          rw [if_neg Bool.false_ne_true, List.append_nil]
          refine h.quiet held (fun _ stored => List.mem_of_mem_filter stored) (Nat.le_refl _) ?_
          intro token userId deviceId expiresAt
          show (s.db.deleteTokens devicePk).Stores hashToken token userId deviceId expiresAt ↔ _
          rw [DeviceDb.deleteTokens_of_gone h.held.sound there]
      | true =>
          rw [if_pos rfl]
          obtain ⟨d, listed, same⟩ := List.any_eq_true.mp there
          obtain rfl := eq_of_beq same
          obtain ⟨name, -⟩ := h.row found listed (by rw [stage]; rfl)
          refine ⟨held,
            h.sound.of_tokens (fun _ stored => List.mem_of_mem_filter stored) (Nat.le_refl _), ?_,
            fun token => h.sessions_of_device (by rintro _ _ _ ⟨⟩) fun _ _ => id⟩
          intro token clear userId deviceId expiresAt
          rw [stands_concat_iff, or_iff_right (by rintro ⟨⟩), ← h.devices token clear, ← name]
          exact DeviceDb.stores_deleteTokens h.held.sound listed
  | stores i c devicePk now found stage admits told same =>
      subst same
      obtain ⟨d, listed, id⟩ := List.any_eq_true.mp (Bool.and_eq_true_iff.mp admits).1
      obtain rfl := eq_of_beq id
      obtain ⟨name, holder⟩ := h.row found listed (by rw [stage]; rfl)
      rw [told, holder, Option.toList_some, List.map_singleton]
      exact h.stores distinct held listed rfl rfl
  | removes userId deviceId label same =>
      subst same label
      refine ⟨held,
        h.sound.of_tokens (fun _ stored => List.mem_of_mem_filter stored) (Nat.le_refl _), ?_,
        fun token => h.sessions_of_device (by rintro _ _ _ ⟨⟩) fun _ _ => id⟩
      intro token clear userId' deviceId' expiresAt
      rw [TokenServer.told, stands_concat_iff, or_iff_right (by rintro ⟨⟩), ← h.devices token clear]
      exact DeviceDb.stores_deleteDevice h.held.sound userId deviceId

/-- An event that has to do with sessions only says nothing of devices. -/
theorem Kept.devices_of_session (h : s.Kept generateToken hashToken history)
    {e : CredentialEvent} (issues : ∀ token userId deviceId expiresAt,
      e ≠ .issued token (.device userId deviceId) expiresAt)
    (ends_ : ∀ token userId deviceId, ¬ e.ends token (.device userId deviceId)) {token : String}
    (clear : s.Collisionless generateToken hashToken token)
    (userId : Int) (deviceId : String) (expiresAt : Option Int64) :
    s.db.Stores hashToken token userId deviceId expiresAt ↔
      Stands (history ++ [e]) token (.device userId deviceId) expiresAt := by
  rw [stands_concat_iff, or_iff_right (issues token userId deviceId expiresAt),
    and_iff_left (ends_ token userId deviceId)]
  exact h.devices token clear userId deviceId expiresAt

theorem Kept.draw (h : s.Kept generateToken hashToken history) :
    s.draw.Kept generateToken hashToken history where
  held := h.held.later (Nat.le_succ _)
  sound := h.sound.of_tokens (t := { s.tokens with generated := s.tokens.generated + 1 })
    (fun _ stored => stored) (Nat.le_succ _)
  devices token clear := h.devices token (clear.earlier (Nat.le_succ _))
  sessions token clear := h.sessions token (clear.earlier (Nat.le_succ _))

theorem generated_login (user : Except AppError Int) (ok : Bool) (now : Int64) :
    s.tokens.generated ≤ (s.login generateToken hashToken user ok now).2.tokens.generated := by
  cases user with
  | error e => exact Nat.le_refl _
  | ok userId =>
      simp only [CredentialServer.login, mintUserSession]
      split
      · exact Nat.le_succ _
      · exact Nat.le_succ _

theorem Kept.login (h : s.Kept generateToken hashToken history)
    (user : Except AppError Int) (ok : Bool) (now : Int64)
    (distinct : TokenHistory.Distinct generateToken hashToken
      (s.login generateToken hashToken user ok now).2.tokens.generated) :
    (s.login generateToken hashToken user ok now).2.Kept generateToken hashToken
      (history ++ s.told generateToken hashToken tokenTtlSecs (.login user ok now)) := by
  cases user with
  | error e =>
      rw [told, List.append_nil]
      exact h
  | ok userId =>
      simp only [told, CredentialServer.login, mintUserSession] at distinct ⊢
      split
      · rename_i admitted
        rw [if_pos admitted] at distinct
        refine ⟨h.draw.held, ⟨?_, ?_, ?_⟩,
          fun token => h.draw.devices_of_session ?_ fun _ _ _ => id, ?_⟩
        · rw [List.map_append, List.nodup_append]
          refine ⟨h.sound.hashed, List.nodup_singleton _, ?_⟩
          intro hash listed other last same
          obtain ⟨r, stored, rfl⟩ := List.mem_map.mp listed
          rw [List.map_singleton, List.mem_singleton] at last
          exact bne_iff_ne.mp (List.all_eq_true.mp admitted.2 r stored) (same.trans last)
        · intro r stored
          obtain before | new := List.mem_append.mp stored
          · exact h.draw.sound.drawn r before
          · rw [List.mem_singleton.mp new]
            exact ⟨s.tokens.generated, Nat.lt_succ_self _, rfl⟩
        · intro r stored row listed
          obtain before | new := List.mem_append.mp stored
          · exact h.sound.apart r before row listed
          · rw [List.mem_singleton.mp new]
            intro same
            obtain ⟨n, less, hash⟩ := h.held.sound.drawn row listed
            exact absurd (distinct (Nat.lt_succ_of_lt less) (Nat.lt_succ_self _)
              (hash.symm.trans same.symm)) (Nat.ne_of_lt less)
        · intro token userId' deviceId expiresAt same
          cases same
        · intro token clear userId' expiresAt
          rw [stands_concat_iff, and_iff_left (show ¬ CredentialEvent.ends _ _ _ from id),
            ← h.sessions token (clear.earlier (Nat.le_succ _))]
          constructor
          · rintro ⟨r, stored, hash, rfl, rfl⟩
            obtain before | new := List.mem_append.mp stored
            · exact .inr ⟨r, before, hash, rfl, rfl⟩
            · obtain rfl := List.mem_singleton.mp new
              rw [clear s.tokens.generated (Nat.lt_succ_self _) hash.symm]
              exact .inl rfl
          · rintro (new | ⟨r, stored, rest⟩)
            · obtain ⟨rfl, owner, rfl⟩ := CredentialEvent.issued.inj new
              obtain rfl := Holder.session.inj owner
              exact ⟨_, List.mem_append_right _ (List.mem_singleton_self _), rfl, rfl, rfl⟩
            · exact ⟨r, List.mem_append_left _ stored, rest⟩
      · rw [List.append_nil]
        exact h.draw

theorem Kept.revoke (h : s.Kept generateToken hashToken history) {token : String}
    (clear : s.Collisionless generateToken hashToken token) (ok : Bool) :
    (s.revokeUserSession hashToken token ok).Kept generateToken hashToken
      (history ++ s.told generateToken hashToken tokenTtlSecs (.revokeUserSession token ok)) := by
  cases ok with
  | false =>
      simp only [told, Bool.false_eq_true, if_false, List.append_nil]
      exact h
  | true =>
      have kept : ∀ r ∈ s.sessions.filter (·.tokenHash != hashToken token), r ∈ s.sessions :=
        fun r stored => List.mem_of_mem_filter stored
      refine ⟨h.held, ⟨h.sound.hashed.sublist (List.filter_sublist.map _), ?_, ?_⟩,
        fun token' => h.devices_of_session (by rintro _ _ _ _ ⟨⟩) fun _ _ _ => id, ?_⟩
      · exact fun r stored => h.sound.drawn r (kept r stored)
      · exact fun r stored => h.sound.apart r (kept r stored)
      · intro token' clear' userId expiresAt
        simp only [told, if_true]
        rw [stands_concat_iff, or_iff_right (by rintro ⟨⟩), ← h.sessions token' clear']
        constructor
        · rintro ⟨r, stored, hash, rest⟩
          obtain ⟨stored, other⟩ := List.mem_filter.mp stored
          refine ⟨⟨r, stored, hash, rest⟩, fun same => bne_iff_ne.mp other ?_⟩
          rw [hash, show token = token' from same]
        · rintro ⟨⟨r, stored, hash, rest⟩, other⟩
          refine ⟨r, List.mem_filter.mpr ⟨stored, bne_iff_ne.mpr fun same => other ?_⟩, hash, rest⟩
          -- both texts have the hash of the session's token
          obtain ⟨n, less, drawn⟩ := h.sound.drawn r stored
          exact (clear n less (same.symm.trans drawn)).trans
            (clear' n less (hash.symm.trans drawn)).symm

theorem kept_nil : Kept generateToken hashToken ⟨⟨⟨[], []⟩, [], 0⟩, []⟩ [] where
  held := TokenServer.held_nil
  sound := ⟨List.nodup_nil, nofun, nofun⟩
  devices token _ userId deviceId expiresAt := by
    refine iff_of_false ?_ stands_nil
    rintro ⟨t, stored, -⟩
    exact absurd stored List.not_mem_nil
  sessions token _ userId expiresAt := by
    refine iff_of_false ?_ stands_nil
    rintro ⟨r, stored, -⟩
    exact absurd stored List.not_mem_nil

/-- One step, of tables that say what the history says. -/
theorem Kept.step {l : CredentialLabel}
    (stepped : s.step crypto generateToken hashToken tokenTtlSecs l = some s')
    (met : s.Unreused generateToken hashToken l) : s.tokens.generated ≤ s'.tokens.generated ∧
      (TokenHistory.Distinct generateToken hashToken s'.tokens.generated →
        s.Kept generateToken hashToken history → s'.Kept generateToken hashToken
          (history ++ s.told generateToken hashToken tokenTtlSecs l)) := by
  cases l with
  | registry l =>
      obtain ⟨t, moved, rfl⟩ := Option.map_eq_some_iff.mp stepped
      have moved := TokenServer.registryStep_moves moved
      exact ⟨moved.tokens.1, fun distinct h => h.registry distinct met moved⟩
  | login user ok now =>
      cases stepped
      exact ⟨generated_login user ok now, fun distinct h => h.login user ok now distinct⟩
  | revokeUserSession token ok =>
      cases stepped
      refine ⟨?_, fun _ h => h.revoke met ok⟩
      cases ok with
      | false => exact Nat.le_refl _
      | true => exact Nat.le_refl _

theorem kept_of_reachable {t : CredentialServer × List CredentialEvent}
    (run : (recorded crypto generateToken hashToken tokenTtlSecs).ReachableBy
      (fun t => t.1.Unreused generateToken hashToken) t) :
    TokenHistory.Distinct generateToken hashToken t.1.tokens.generated →
      t.1.Kept generateToken hashToken t.2 := by
  refine run.invariant (I := fun t =>
    TokenHistory.Distinct generateToken hashToken t.1.tokens.generated →
      t.1.Kept generateToken hashToken t.2) ?_ ?_
  · rintro t ⟨first, noted⟩ -
    rw [noted, first]
    exact kept_nil
  · intro t l t' h met step distinct
    obtain ⟨taken, noted⟩ := Machine.recording_step_iff.mp step
    obtain ⟨le, next⟩ := Kept.step taken met
    rw [noted]
    exact next distinct (h (distinct.earlier le))

theorem Kept.userIdForSession_iff (h : s.Kept generateToken hashToken history) {token : String}
    (clear : s.Collisionless generateToken hashToken token) (now : Int64) (userId : Int) :
    s.userIdForSession hashToken token now = some userId ↔
      Live history now token (.session userId) := by
  have hit : ∀ r, s.sessions.find? (fun r => r.tokenHash = hashToken token ∧ now < r.expiresAt) =
      some r → r.tokenHash = hashToken token ∧ now < r.expiresAt := fun r found =>
    of_decide_eq_true (List.find?_some (p := fun r : UserSession =>
      decide (r.tokenHash = hashToken token ∧ now < r.expiresAt)) found)
  constructor
  · intro found
    obtain ⟨r, first, rfl⟩ := Option.map_eq_some_iff.mp found
    obtain ⟨hash, fresh⟩ := hit r first
    refine ⟨some r.expiresAt, (h.sessions _ clear ..).mp ?_, decide_eq_true fresh⟩
    exact ⟨r, List.mem_of_find?_eq_some first, hash, rfl, rfl⟩
  · rintro ⟨expiresAt, stands, fresh⟩
    obtain ⟨r, stored, hash, rfl, rfl⟩ := (h.sessions _ clear ..).mpr stands
    have fresh : now < r.expiresAt := of_decide_eq_true fresh
    cases first : s.sessions.find? fun r => r.tokenHash = hashToken token ∧ now < r.expiresAt with
    | none =>
        have none_ := List.find?_eq_none.mp first r stored
        exact absurd (decide_eq_true ⟨hash, fresh⟩) none_
    | some r' =>
        have hash' := (hit r' first).1
        have same := List.inj_on_of_nodup_map h.sound.hashed (List.mem_of_find?_eq_some first) stored
          (hash'.trans hash.symm)
        rw [userIdForSession, first, same]
        rfl

theorem Kept.resolve_iff (h : s.Kept generateToken hashToken history) {token : String}
    (clear : s.Collisionless generateToken hashToken token) (now : Int64) (userId : Int)
    (deviceId : String) : s.resolve hashToken token now = some ⟨userId, deviceId⟩ ↔
      Live history now token (.device userId deviceId) := by
  have stored : s.db.resolve hashToken token now = some (userId, deviceId) ↔
      Live history now token (.device userId deviceId) := by
    rw [DeviceDb.resolve_eq_some_iff h.held.sound]
    exact exists_congr fun expiresAt => and_congr_left fun _ => h.devices _ clear ..
  rw [← stored, resolve, Option.map_eq_some_iff]
  constructor
  · rintro ⟨⟨owner, name⟩, resolves, same⟩
    obtain ⟨rfl, rfl⟩ := ResolvedCredential.mk.inj same
    exact resolves
  · exact fun resolves => ⟨_, resolves, rfl⟩

/-- No bearer token is good for a session and for a device. -/
theorem Kept.apart (h : s.Kept generateToken hashToken history) (token : String) (now : Int64) :
    s.userIdForSession hashToken token now = none ∨ s.resolve hashToken token now = none := by
  cases session : s.userIdForSession hashToken token now with
  | none => exact .inl rfl
  | some userId =>
      refine .inr (Option.map_eq_none_iff.mpr ?_)
      refine Option.eq_none_iff_forall_ne_some.mpr fun owner resolves => ?_
      obtain ⟨t, listed, -, -, hash, -⟩ := DeviceDb.of_resolve resolves
      obtain ⟨r, first, -⟩ := Option.map_eq_some_iff.mp session
      have hash' := (of_decide_eq_true (List.find?_some (p := fun r : UserSession =>
        decide (r.tokenHash = hashToken token ∧ now < r.expiresAt)) first)).1
      exact h.sound.apart r (List.mem_of_find?_eq_some first) t listed (hash'.trans hash.symm)

variable (hashToken) in
/-- What is claimed of a token that is presented: it is good exactly while it was issued, and has
not expired, been rotated, gone with its device or been signed out since; it is then good for whom
it was issued for, and never for a session and a device. -/
structure AsIssued (t : CredentialServer × List CredentialEvent) (now : Int64) (token : String) :
    Prop where
  session : ∀ userId, t.1.userIdForSession hashToken token now = some userId ↔
    Live t.2 now token (.session userId)
  device : ∀ userId deviceId, t.1.resolve hashToken token now = some ⟨userId, deviceId⟩ ↔
    Live t.2 now token (.device userId deviceId)
  apart : t.1.userIdForSession hashToken token now = none ∨
    t.1.resolve hashToken token now = none
  header : ∀ authorization basic, bearerToken authorization = some token → ∀ userId,
    (t.1.authedUser hashToken authorization basic now = .ok userId ↔
      Live t.2 now token (.session userId))

/-- In a run in which no row is created under an id that another request holds, every token that
is presented is good as it was issued, whatever else is under way. -/
theorem credential_lifecycle (t : CredentialServer × List CredentialEvent)
    (run : (recorded crypto generateToken hashToken tokenTtlSecs).ReachableBy
      (fun t => t.1.Unreused generateToken hashToken) t)
    (distinct : TokenHistory.Distinct generateToken hashToken t.1.tokens.generated) (now : Int64)
    (token : String) (clear : t.1.Collisionless generateToken hashToken token) :
    AsIssued hashToken t now token := by
  have kept := kept_of_reachable run distinct
  refine ⟨kept.userIdForSession_iff clear now, kept.resolve_iff clear now, kept.apart token now, ?_⟩
  intro authorization basic presented userId
  exact (authedUser_eq_ok_iff presented).trans (kept.userIdForSession_iff clear now userId)

theorem sample_collisionless (s : CredentialServer) (token : String) :
    s.Collisionless TokenHistory.sampleToken id token := fun _ _ same => same

instance (s : CredentialServer) : ∀ l, Decidable (s.Unreused TokenHistory.sampleToken id l)
  | .registry l => inferInstanceAs (Decidable (s.tokens.Unreused l))
  | .revokeUserSession token _ => .isTrue (sample_collisionless s token)
  | .login .. => .isTrue trivial

def emptyServer : CredentialServer × List CredentialEvent := (⟨⟨⟨[], []⟩, [], 0⟩, []⟩, [])

/-- A device registers twice, the second time side by side with another account's device, and a
user signs in: the first token is no longer good, the second is the device's, and the last the
user's. -/
theorem credential_lifecycle_three : ∃ t,
    (recorded sampleCrypto TokenHistory.sampleToken id none).ReachableBy
      (fun t => t.1.Unreused TokenHistory.sampleToken id) t ∧
      (∀ userId deviceId,
        ¬ Live t.2 0 (TokenHistory.sampleToken 0) (.device userId deviceId)) ∧
      Live t.2 0 (TokenHistory.sampleToken 1) (.device 1 "ab12") ∧
      Live t.2 0 (TokenHistory.sampleToken 3) (.session 1) ∧
      t.1.authedUser id (some "Bearer fff") (.error .unauthorized) 0 = .ok 1 := by
  obtain ⟨t, run, old, new, session⟩ := Machine.exists_reachableBy
    (recorded sampleCrypto TokenHistory.sampleToken id none)
    (fun t => t.1.Unreused TokenHistory.sampleToken id) (s := emptyServer) ⟨rfl, rfl⟩
    (((TokenServer.registrationOf 0 1 "ab12" "laptop" ++ TokenServer.finishing 0 ++
      TokenServer.registrationOf 1 1 "ab12" "laptop" ++
      TokenServer.registrationOf 2 2 "cd34" "desk" ++ TokenServer.finishing 1 ++
      TokenServer.finishing 2).map .registry) ++ [.login (.ok 1) true 0])
    (fun t => t.1.resolve id (TokenHistory.sampleToken 0) 0 = none ∧
      t.1.resolve id (TokenHistory.sampleToken 1) 0 = some ⟨1, "ab12"⟩ ∧
        t.1.userIdForSession id (TokenHistory.sampleToken 3) 0 = some 1) (by decide)
  have good := fun token => credential_lifecycle t run (TokenHistory.sampleToken_distinct _) 0 token
    (sample_collisionless t.1 token)
  have live := ((good _).session 1).mp session
  refine ⟨t, run, fun userId deviceId live => ?_, ((good _).device 1 "ab12").mp new, live, ?_⟩
  · cases old.symm.trans (((good _).device userId deviceId).mpr live)
  · exact ((good (TokenHistory.sampleToken 3)).header (some "Bearer fff") _ (by decide) 1).mpr live

/-- A registration is given a token of its device, and the token is good for another account's. -/
theorem token_of_other : ∃ t,
    (recorded sampleCrypto TokenHistory.sampleToken id none).Reachable t ∧
      Live t.2 0 (TokenHistory.sampleToken 2) (.device 1 "ab12") ∧
      t.1.resolve id (TokenHistory.sampleToken 2) 0 = some ⟨2, "cd34"⟩ ∧
      ¬ AsIssued id t 0 (TokenHistory.sampleToken 2) := by
  obtain ⟨t, run, told, resolves⟩ := Machine.exists_reachableBy
    (recorded sampleCrypto TokenHistory.sampleToken id none) Machine.Always (s := emptyServer)
    ⟨rfl, rfl⟩ ((TokenServer.reuse ++ TokenServer.finishing 1).map .registry)
    (fun t => t.2.getLast? =
        some (.issued (TokenHistory.sampleToken 2) (.device 1 "ab12") none) ∧
      t.1.resolve id (TokenHistory.sampleToken 2) 0 = some ⟨2, "cd34"⟩) (by decide)
  have live : Live t.2 0 (TokenHistory.sampleToken 2) (.device 1 "ab12") := by
    obtain ⟨before, split⟩ := List.getLast?_eq_some_iff.mp told
    refine ⟨none, ?_, rfl⟩
    rw [split]
    exact stands_concat_iff.mpr (.inl rfl)
  refine ⟨t, run, live, resolves, fun good => ?_⟩
  cases resolves.symm.trans ((good.device 1 "ab12").mpr live)

end CredentialServer
end ReachMyDevice
