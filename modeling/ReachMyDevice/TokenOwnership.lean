import ReachMyDevice.Registry

/-!
# What a row id stands for

A request carries a row id from one statement to the next. It stands for the
device the request is about as long as no other row is given that id.
-/
namespace ReachMyDevice
open Machines

/-- Every row with this id is one that the request is about. -/
def DeviceDb.Denotes (db : DeviceDb) (devicePk : Nat) (request : TokenRequest) : Prop :=
  ∀ d ∈ db.devices, d.id = devicePk → d.fits request

theorem DeviceDb.Denotes.of_rows {db db' : DeviceDb} {devicePk : Nat} {request : TokenRequest}
    (h : db.Denotes devicePk request)
    (rows : ∀ d' ∈ db'.devices, ∃ d ∈ db.devices, d.SameRow d') : db'.Denotes devicePk request := by
  intro d' listed id
  obtain ⟨d, before, same⟩ := rows d' listed
  exact same.fits (h d before (same.1.symm.trans id))

/-- Whether the next statement creates a row. -/
def TokenStage.creates : TokenStage → Bool
  | .storing none => true
  | _ => false

/-- The token that a request was given. -/
def TokenStage.token : TokenStage → Option String
  | .returned (.ok token) => some token.token
  | _ => none

theorem TokenStage.returned_of_token {stage : TokenStage} {token : String}
    (given : stage.token = some token) : ∃ t, stage = .returned (.ok t) ∧ t.token = token := by
  unfold TokenStage.token at given
  split at given
  · exact ⟨_, rfl, Option.some.inj given⟩
  · cases given

namespace TokenServer
variable (generateToken : Nat → String) (hashToken : String → String) (s : TokenServer)

/-- A token that a request was given resolves, while it is live, to the device of the request,
and for a registration to a device of its account. -/
def TokensOwned : Prop :=
  ∀ c ∈ s.calls, ∀ token, c.stage = .returned (.ok token) → ∀ now,
    s.db.live hashToken token.token now = true →
      ∃ userId, s.db.resolve hashToken token.token now = some (userId, c.request.deviceId) ∧
        ∀ account, c.request.account = some account → userId = account

/-- What a step changes of a row is changed for the row's owner. -/
def Untouched (l : RegistryLabel) (s' : TokenServer) : Prop :=
  ∀ d ∈ s.db.devices, ∀ d' ∈ s'.db.devices, d'.id = d.id →
    (d'.name, d'.publicKey, d'.role) ≠ (d.name, d.publicKey, d.role) →
      s.account l = some d.userId

/-- No other request holds the id of the row that a call is about to create, unless it is about
the same device and account. -/
def Frees (c : TokenCall) : Prop :=
  ∀ other ∈ s.calls, other.stage.devicePk = some s.db.nextId →
    other.request.deviceId = c.request.deviceId ∧
      ∀ userId ∈ other.request.account, c.request.account = some userId

/-- A row is created under an id that is free in this sense. -/
def Unreused : RegistryLabel → Prop
  | .call (.store i true _) => ∀ c ∈ s.calls[i]?, c.stage.creates = true → s.Frees c
  | _ => True

/-- What a call holds, and was given, stands for what it asked for. -/
structure CallHeld (c : TokenCall) : Prop where
  holds : ∀ pk, c.stage.devicePk = some pk → s.db.Denotes pk c.request
  returned : ∀ token, c.stage = .returned (.ok token) → ∃ n < s.generated,
    token = ⟨generateToken n, c.request.deviceId⟩ ∧
      ∀ t ∈ s.db.tokens, t.tokenHash = hashToken (generateToken n) →
        s.db.Denotes t.devicePk c.request

structure Held : Prop where
  sound : s.db.Sound hashToken generateToken s.generated
  calls : ∀ c ∈ s.calls, s.CallHeld generateToken hashToken c

variable {crypto : Crypto} {generateToken hashToken s} {tokenTtlSecs : Option UInt64}
  {s' : TokenServer}

theorem CallHeld.of_rows {c : TokenCall} (h : s.CallHeld generateToken hashToken c)
    (rows : ∀ d' ∈ s'.db.devices, ∃ d ∈ s.db.devices, d.SameRow d')
    (tokens : ∀ t ∈ s'.db.tokens, t ∈ s.db.tokens) (generated : s.generated ≤ s'.generated) :
    s'.CallHeld generateToken hashToken c where
  holds pk held := (h.holds pk held).of_rows rows
  returned token given := by
    obtain ⟨n, less, same, denotes⟩ := h.returned token given
    refine ⟨n, Nat.lt_of_lt_of_le less generated, same, fun t stored hash => ?_⟩
    exact (denotes t (tokens t stored) hash).of_rows rows

theorem callHeld_of_unused {c : TokenCall} (unused : c.stage.devicePk = none)
    (waits : ∀ token, c.stage ≠ .returned (.ok token)) : s.CallHeld generateToken hashToken c where
  holds _ held := by cases unused.symm.trans held
  returned token given := absurd given (waits token)

theorem rows_refl (db : DeviceDb) : ∀ d' ∈ db.devices, ∃ d ∈ db.devices, d.SameRow d' :=
  fun d' listed => ⟨d', listed, rfl, rfl, rfl⟩

/-- What is selected is a row of the device, and of the account when it registers. -/
theorem selected_held (sound : s.db.Sound hashToken generateToken s.generated)
    (request : TokenRequest) :
    (∀ pk, (s.selected request).devicePk = some pk → s.db.Denotes pk request) ∧
      ∀ token, s.selected request ≠ .returned (.ok token) := by
  cases request with
  | register userId body =>
      simp only [selected]
      cases found : s.db.find body.deviceId with
      | none => exact ⟨by rintro pk ⟨⟩, by rintro token ⟨⟩⟩
      | some d =>
          dsimp only
          split
          · exact ⟨by rintro pk ⟨⟩, by rintro token ⟨⟩⟩
          · rename_i owner
            refine ⟨fun pk held d' listed id => ?_, by rintro token ⟨⟩⟩
            obtain rfl := Option.some.inj held
            obtain rfl := sound.unique listed (List.mem_of_find?_eq_some found) id
            refine ⟨eq_of_beq (List.find?_some (p := fun d : Device => d.deviceId == _) found), ?_⟩
            rintro account ⟨⟩
            exact not_not.mp owner
  | refresh body =>
      simp only [selected]
      cases found : s.db.find body.deviceId with
      | none => exact ⟨by rintro pk ⟨⟩, by rintro token ⟨⟩⟩
      | some d =>
          refine ⟨fun pk held d' listed id => ?_, by rintro token ⟨⟩⟩
          obtain rfl := Option.some.inj held
          obtain rfl := sound.unique listed (List.mem_of_find?_eq_some found) id
          exact ⟨eq_of_beq (List.find?_some (p := fun d : Device => d.deviceId == _) found),
            by rintro account ⟨⟩⟩

/-- A call that holds a row, and holds it on. -/
theorem Held.goesOn (h : s.Held generateToken hashToken) {i : Nat} {c : TokenCall} {pk : Nat}
    {stage : TokenStage} (found : s.calls[i]? = some c) (was : c.stage.devicePk = some pk)
    (next : stage.devicePk = some pk) (waits : ∀ token, stage ≠ .returned (.ok token))
    (rows : ∀ d' ∈ s'.db.devices, ∃ d ∈ s.db.devices, d.SameRow d') :
    s'.CallHeld generateToken hashToken { c with stage } where
  holds pk' held := by
    obtain rfl := Option.some.inj (next.symm.trans held)
    exact ((h.calls c (List.mem_of_getElem? found)).holds pk was).of_rows rows
  returned token given := absurd given (waits token)

/-- A row is created under an id that no other call holds for something else. -/
theorem Held.creates (h : s.Held generateToken hashToken) {i : Nat} {c : TokenCall} {userId : Int}
    {body : RegisterDevice} {now : Int64} (request : c.request = .register userId body)
    (absent : s.db.find body.deviceId = none) (frees : s.Frees c) :
    ({ s.setStage i c (.deleting s.db.nextId) with
      db := s.db.insertDevice userId body now } : TokenServer).Held generateToken hashToken := by
  refine ⟨h.sound.insertDevice userId absent now, Slots.forall_mem_set ?_ ?_⟩
  · intro c' old
    refine ⟨fun pk held d listed id => ?_, fun token given => ?_⟩
    · rcases List.mem_append.mp listed with before | new
      · exact (h.calls c' old).holds pk held d before id
      · -- the new row has taken an id that `c'` holds
        obtain rfl := List.mem_singleton.mp new
        obtain ⟨device, account⟩ := frees c' old (held.trans (congrArg some id.symm))
        rw [request] at device account
        exact ⟨device.symm, fun owner own => Option.some.inj (account owner own)⟩
    · obtain ⟨n, less, same, denotes⟩ := (h.calls c' old).returned token given
      refine ⟨n, less, same, fun t stored hash d listed id => ?_⟩
      rcases List.mem_append.mp listed with before | new
      · exact denotes t stored hash d before id
      · obtain rfl := List.mem_singleton.mp new
        obtain ⟨d, there, tied⟩ := h.sound.tied t stored
        exact absurd (tied.trans id.symm) (Nat.ne_of_lt (s.db.lt_nextId there))
  · refine ⟨fun pk held d listed id => ?_, by rintro token ⟨⟩⟩
    obtain rfl := Option.some.inj held
    rcases List.mem_append.mp listed with before | new
    · exact absurd id (Nat.ne_of_lt (s.db.lt_nextId before))
    · obtain rfl := List.mem_singleton.mp new
      simp only [Device.fits, request, TokenRequest.deviceId, TokenRequest.account,
        Option.some.injEq, forall_eq', and_self]

/-- A token is stored for the row that its call holds. -/
theorem Held.stores (distinct : TokenHistory.Distinct generateToken hashToken (s.generated + 1))
    (h : s.Held generateToken hashToken) {i : Nat} {c : TokenCall} {devicePk : Nat} {now : Int64}
    (found : s.calls[i]? = some c) (stage : c.stage = .inserting devicePk)
    (admits : s.db.admits (s.tokenRow generateToken hashToken tokenTtlSecs devicePk now) = true) :
    ({ s.setStage i c (.returned (.ok ⟨generateToken s.generated, c.request.deviceId⟩)) with
      db := s.db.insertToken (s.tokenRow generateToken hashToken tokenTtlSecs devicePk now)
      generated := s.generated + 1 } : TokenServer).Held generateToken hashToken := by
  refine ⟨h.sound.insertToken admits rfl, Slots.forall_mem_set ?_ ?_⟩
  · intro c' old
    refine ⟨(h.calls c' old).holds, fun token given => ?_⟩
    obtain ⟨n, less, same, denotes⟩ := (h.calls c' old).returned token given
    refine ⟨n, Nat.lt_succ_of_lt less, same, fun t stored hash => ?_⟩
    rcases List.mem_append.mp stored with before | new
    · exact denotes t before hash
    · obtain rfl := List.mem_singleton.mp new
      exact absurd (distinct (Nat.lt_succ_self _) (Nat.lt_succ_of_lt less) hash) (Nat.ne_of_gt less)
  · refine ⟨by rintro pk ⟨⟩, fun token given => ?_⟩
    cases given
    refine ⟨s.generated, Nat.lt_succ_self _, rfl, fun t stored hash => ?_⟩
    rcases List.mem_append.mp stored with before | new
    · obtain ⟨n, less, drawn⟩ := h.sound.drawn t before
      exact absurd (distinct (Nat.lt_succ_of_lt less) (Nat.lt_succ_self _) (drawn.symm.trans hash))
        (Nat.ne_of_lt less)
    · obtain rfl := List.mem_singleton.mp new
      exact (h.calls c (List.mem_of_getElem? found)).holds devicePk (by rw [stage]; rfl)

theorem Held.step (distinct : TokenHistory.Distinct generateToken hashToken s'.generated)
    (h : s.Held generateToken hashToken) {l : RegistryLabel} (met : s.Unreused l)
    (moved : s.Moves crypto generateToken hashToken tokenTtlSecs l s') :
    s'.Held generateToken hashToken := by
  cases moved with
  | idle told same => exact same ▸ h
  | arrives c told unused waits checked same =>
      subst same
      refine ⟨h.sound, Slots.forall_mem_concat ?_ (callHeld_of_unused unused waits)⟩
      intro c' old
      exact (h.calls c' old).of_rows (rows_refl _) (fun _ stored => stored) (Nat.le_refl _)
  | ends i c stage found told failed db calls generated =>
      refine ⟨db ▸ h.sound.later generated, ?_⟩
      rw [calls]
      refine Slots.forall_mem_set ?_ (callHeld_of_unused (TokenStage.devicePk_of_failed failed)
        (TokenStage.ne_ok_of_failed failed))
      intro c' old
      exact (h.calls c' old).of_rows (db ▸ rows_refl _) (fun _ stored => db ▸ stored) generated
  | selects i c found told stage same =>
      subst same
      obtain ⟨holds, waits⟩ := selected_held h.sound c.request
      refine ⟨h.sound, Slots.forall_mem_set ?_
        ⟨holds, fun token given => absurd given (waits token)⟩⟩
      intro c' old
      exact (h.calls c' old).of_rows (rows_refl _) (fun _ stored => stored) (Nat.le_refl _)
  | updates i c id userId body now label found stage request same =>
      subst same
      have rows : ∀ d' ∈ (s.db.updateDevice id body).devices, ∃ d ∈ s.db.devices, d.SameRow d' :=
        fun d' listed => s.db.updateDevice_row listed
      refine ⟨h.sound.updateDevice id body, Slots.forall_mem_set ?_
        (h.goesOn found (by rw [stage]; rfl) rfl (by rintro token ⟨⟩) rows)⟩
      intro c' old
      exact (h.calls c' old).of_rows rows (fun _ stored => stored) (Nat.le_refl _)
  | creates i c userId body now label found stage request absent same =>
      subst same label
      exact h.creates request absent (met c found (by rw [stage]; rfl))
  | clears i c devicePk found stage told same =>
      subst same
      refine ⟨h.sound.deleteTokens devicePk, Slots.forall_mem_set ?_
        (h.goesOn found (by rw [stage]; rfl) rfl (by rintro token ⟨⟩) (rows_refl _))⟩
      intro c' old
      exact (h.calls c' old).of_rows (rows_refl _) (fun _ stored => List.mem_of_mem_filter stored)
        (Nat.le_refl _)
  | stores i c devicePk now found stage admits told same =>
      subst same
      exact h.stores distinct found stage admits
  | removes userId deviceId label same =>
      subst same
      refine ⟨h.sound.deleteDevice userId deviceId, fun c' member => ?_⟩
      refine (h.calls c' member).of_rows (fun d listed => ?_) ?_ (Nat.le_refl _)
      · exact ⟨d, List.mem_of_mem_filter listed, rfl, rfl, rfl⟩
      · exact fun t stored => List.mem_of_mem_filter stored

theorem Held.tokensOwned (h : s.Held generateToken hashToken) : s.TokensOwned hashToken := by
  intro c member token given now live
  obtain ⟨n, -, rfl, denotes⟩ := (h.calls c member).returned token given
  obtain ⟨owner, resolves⟩ := h.sound.resolve_of_live live
  obtain ⟨t, stored, d, listed, hash, -, id, rfl⟩ := DeviceDb.of_resolve resolves
  have fits := denotes t stored hash d listed id
  exact ⟨d.userId, fits.1 ▸ resolves, fits.2⟩

theorem Held.untouched (h : s.Held generateToken hashToken) {l : RegistryLabel}
    (moved : s.Moves crypto generateToken hashToken tokenTtlSecs l s') : s.Untouched l s' := by
  intro d listed d' listed' id changed
  -- a row that was there before is the row with its id
  have stays : d' ∉ s.db.devices := by
    intro there
    obtain rfl := h.sound.unique there listed id
    exact changed rfl
  cases moved with
  | idle told same => exact absurd (same ▸ listed') stays
  | arrives c told unused waits checked same =>
      subst same
      exact absurd listed' stays
  | ends i c stage found told failed db calls generated => exact absurd (db ▸ listed') stays
  | selects i c found told stage same =>
      subst same
      exact absurd listed' stays
  | updates i c pk userId body now label found stage request same =>
      subst same label
      obtain ⟨before, there, rfl⟩ := List.mem_map.mp listed'
      by_cases own : before.id = pk
      · rw [if_pos own] at id
        obtain rfl := h.sound.unique there listed id
        have holds := (h.calls c (List.mem_of_getElem? found)).holds pk (by rw [stage]; rfl)
        have fits := holds before there own
        simp only [account, found, request, Option.bind_some, TokenRequest.account]
        rw [request] at fits
        exact congrArg some (fits.2 userId rfl).symm
      · rw [if_neg own] at stays
        exact absurd there stays
  | creates i c userId body now label found stage request absent same =>
      subst same
      obtain before | new := List.mem_append.mp listed'
      · exact absurd before stays
      · obtain rfl := List.mem_singleton.mp new
        exact absurd id.symm (Nat.ne_of_lt (s.db.lt_nextId listed))
  | clears i c devicePk found stage told same =>
      subst same
      exact absurd listed' stays
  | stores i c devicePk now found stage admits told same =>
      subst same
      exact absurd listed' stays
  | removes userId deviceId label same =>
      subst same
      exact absurd (List.mem_of_mem_filter listed') stays

theorem held_nil : (⟨⟨[], []⟩, [], 0⟩ : TokenServer).Held generateToken hashToken :=
  ⟨⟨List.nodup_nil, List.nodup_nil, List.nodup_nil, nofun, nofun⟩, nofun⟩

theorem held_of_reachable
    (run : (registry crypto generateToken hashToken tokenTtlSecs).ReachableBy Unreused s) :
    TokenHistory.Distinct generateToken hashToken s.generated → s.Held generateToken hashToken := by
  refine run.invariant (I := fun s => TokenHistory.Distinct generateToken hashToken s.generated →
    s.Held generateToken hashToken) ?_ ?_
  · rintro s rfl -
    exact held_nil
  · intro s l s' h met stepped distinct
    have moved := registryStep_moves stepped
    exact (h (distinct.earlier moved.tokens.1)).step distinct met moved

/-- In a run in which no row is given an id that a request for another device or account holds,
tokens stand for what was asked for, and no request changes another account's row. -/
theorem tokens_owned (distinct : TokenHistory.Distinct generateToken hashToken s.generated)
    (run : (registry crypto generateToken hashToken tokenTtlSecs).ReachableBy Unreused s) :
    s.TokensOwned hashToken ∧ ∀ l s',
      s.registryStep crypto generateToken hashToken tokenTtlSecs l = some s' →
        s.Untouched l s' := by
  have held := held_of_reachable run distinct
  exact ⟨held.tokensOwned, fun l s' stepped => held.untouched (registryStep_moves stepped)⟩

instance (c : TokenCall) : Decidable (s.Frees c) :=
  inferInstanceAs (Decidable (∀ other ∈ s.calls, _ → _))

instance : ∀ l, Decidable (s.Unreused l)
  | .call (.store i true _) =>
    inferInstanceAs (Decidable (∀ c ∈ s.calls[i]?, c.stage.creates = true → s.Frees c))
  | .call (.store _ false _) | .call (.register ..) | .call (.refresh ..) | .call (.select ..)
  | .call (.delete ..) | .call (.insert ..) | .call (.abort _) | .deleteDevice .. => .isTrue trivial

def registrationOf (i : Nat) (userId : Int) (deviceId name : String) : List RegistryLabel :=
  [.call (.register (.ok userId) { deviceId, name, publicKey := "key" }), .call (.select i true)]

def finishing (i : Nat) : List RegistryLabel :=
  [.call (.store i true 0), .call (.delete i true), .call (.insert i true 0)]

/-- Two accounts register side by side, and the first device is deleted when both are done. -/
theorem tokens_owned_two : ∃ s,
    (registry sampleCrypto TokenHistory.sampleToken id none).ReachableBy Unreused s ∧
      s.db.live id (TokenHistory.sampleToken 1) 0 = true ∧ s.TokensOwned id := by
  obtain ⟨s, run, live⟩ := Machine.exists_reachableBy
    (registry sampleCrypto TokenHistory.sampleToken id none) Unreused
    (s := ⟨⟨[], []⟩, [], 0⟩) rfl
    (registrationOf 0 1 "ab12" "laptop" ++ registrationOf 1 2 "cd34" "desk" ++ finishing 0 ++
      finishing 1 ++ [.deleteDevice (.ok 1) "ab12" true])
    (fun s => s.db.live id (TokenHistory.sampleToken 1) 0 = true) (by decide)
  exact ⟨s, run, live, (tokens_owned (TokenHistory.sampleToken_distinct _) run).1⟩

instance {l : RegistryLabel} : Decidable (s.Untouched l s') :=
  inferInstanceAs (Decidable (∀ d ∈ s.db.devices, ∀ d' ∈ s'.db.devices, _ → _ → _))

/-- A registration that has read its row, the deletion of the row, and a registration of another
account that is given the row's id. -/
def reuse : List RegistryLabel :=
  registrationOf 0 1 "ab12" "laptop" ++ finishing 0 ++ registrationOf 1 1 "ab12" "renamed" ++
    [.deleteDevice (.ok 1) "ab12" true] ++ registrationOf 2 2 "cd34" "desk" ++ finishing 2

/-- The registration changes the other account's row, and is given a token for it. -/
theorem tokens_not_owned : ∃ s l s' t,
    (registry sampleCrypto TokenHistory.sampleToken id none).Reachable s ∧
      s.registryStep sampleCrypto TokenHistory.sampleToken id none l = some s' ∧
      ¬ s.Untouched l s' ∧
      (registry sampleCrypto TokenHistory.sampleToken id none).Reachable t ∧ ¬ t.TokensOwned id := by
  obtain ⟨s, run, stepped⟩ := Machine.exists_reachableBy
    (registry sampleCrypto TokenHistory.sampleToken id none) Machine.Always
    (s := ⟨⟨[], []⟩, [], 0⟩) rfl reuse
    (fun s => (s.registryStep sampleCrypto TokenHistory.sampleToken id none
      (.call (.store 1 true 0))).any
        (fun s' => !decide (s.Untouched (.call (.store 1 true 0)) s')) = true) (by decide)
  obtain ⟨s', taken, touched⟩ := (Option.any_eq_true _ _).mp stepped
  obtain ⟨t, run', given, live, resolves⟩ := Machine.exists_reachableBy
    (registry sampleCrypto TokenHistory.sampleToken id none) Machine.Always
    (s := ⟨⟨[], []⟩, [], 0⟩) rfl (reuse ++ finishing 1)
    (fun t => (t.calls[1]?.bind fun c => c.stage.token.map fun token =>
        (token, c.request.account)) = some (TokenHistory.sampleToken 2, some 1) ∧
      t.db.live id (TokenHistory.sampleToken 2) 0 = true ∧
        t.db.resolve id (TokenHistory.sampleToken 2) 0 = some (2, "cd34")) (by decide)
  refine ⟨s, _, s', t, run, taken, ?_, run', fun owned => ?_⟩
  · simpa using touched
  · obtain ⟨c, found, given⟩ := Option.bind_eq_some_iff.mp given
    obtain ⟨token, stage, same⟩ := Option.map_eq_some_iff.mp given
    obtain ⟨rfl, account⟩ := Prod.mk.inj same
    obtain ⟨given, stage, text⟩ := TokenStage.returned_of_token stage
    rw [← text] at live resolves
    obtain ⟨userId, answer, own⟩ := owned c (List.mem_of_getElem? found) given stage 0 live
    have two : userId = 2 := (Prod.mk.inj (Option.some.inj (answer.symm.trans resolves))).1
    exact absurd (two.symm.trans (own 1 account)) (by decide)

end TokenServer
end ReachMyDevice
