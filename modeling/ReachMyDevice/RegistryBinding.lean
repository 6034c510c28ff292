import ReachMyDevice.TokenOwnership

/-!
# The keys of the registry

A device id is the fingerprint of the device's key. A refresh checks that its
key is the one; a registration stores whatever pair it is sent.
-/
namespace ReachMyDevice
open Machines

/-- The key that a text stands for. -/
def keyOf (publicKey : String) : Option Bytes := RefreshToken.decodeExact 32 publicKey

def BindsKey (crypto : Crypto) (deviceId publicKey : String) : Prop :=
  (keyOf publicKey).map (deviceIdFromPublicKey crypto) = some deviceId

def TokenRequest.publicKey : TokenRequest → String
  | .register _ body => body.publicKey
  | .refresh body => body.publicKey

/-- A refresh signed with a key. -/
def RefreshToken.SignedWith (crypto : Crypto) (body : RefreshToken) (key : Bytes) : Prop :=
  keyOf body.publicKey = some key ∧ deviceIdFromPublicKey crypto key = body.deviceId ∧
    ∃ signature, decodeExact 64 body.signature = some signature ∧
      signatureValid crypto key body.timestamp signature = true

theorem RefreshToken.signedWith_of_check {crypto : Crypto} {body : RefreshToken} {now : Int64}
    (passed : body.check crypto now = .ok ()) : ∃ key, body.SignedWith crypto key := by
  unfold check at passed
  split at passed
  · cases passed
  · rename_i key decoded
    split at passed
    · cases passed
    · rename_i bound
      split at passed
      · cases passed
      · split at passed
        · cases passed
        · rename_i signature given
          split at passed
          · rename_i valid
            exact ⟨key, decoded, not_not.mp bound, signature, given, valid⟩
          · cases passed

structure DeviceRow where
  deviceId : String
  name : String
  publicKey : String
  role : String
  createdAt : Int64

def Device.row (d : Device) : DeviceRow :=
  { deviceId := d.deviceId, name := d.name, publicKey := d.publicKey, role := d.role
    createdAt := d.createdAt }

/-- What a registration that writes a row has sent. -/
def Device.body (d : Device) : RegisterDevice :=
  { deviceId := d.deviceId, name := d.name, publicKey := d.publicKey, role := d.role }

def DeviceDb.listDevices (db : DeviceDb) (userId : Int) : List DeviceRow :=
  ((db.devices.filter (·.userId == userId)).mergeSort (·.createdAt ≤ ·.createdAt)).map (·.row)

/-- A refresh with a key that was given a token. -/
def TokenCall.refreshed (publicKey token : String) (c : TokenCall) : Bool :=
  match c.request with
  | .refresh body => body.publicKey == publicKey && c.stage.token == some token
  | .register .. => false

def TokenCall.registers (publicKey : String) (c : TokenCall) : Bool :=
  match c.request with
  | .register _ body => keyOf body.publicKey == keyOf publicKey
  | .refresh _ => false

namespace TokenServer
variable (crypto : Crypto) (hashToken : String → String) (s : TokenServer)

/-- Each row is a device with its key, as a registration of the owner sent it. -/
def RowsBound : Prop :=
  ∀ d ∈ s.db.devices, BindsKey crypto d.deviceId d.publicKey ∧
    ∃ c ∈ s.calls, c.request = .register d.userId d.body

/-- A token that the holder of a key was given for its device stands for an account that
registered this key for the device. -/
def RefreshesBound : Prop :=
  ∀ c ∈ s.calls, ∀ body, c.request = .refresh body → ∀ token, c.stage = .returned (.ok token) →
    ∃ key, body.SignedWith crypto key ∧ ∀ now userId deviceId,
      s.db.resolve hashToken token.token now = some (userId, deviceId) →
        deviceId = body.deviceId ∧ ∃ c' ∈ s.calls, ∃ registered,
          c'.request = .register userId registered ∧ registered.deviceId = body.deviceId ∧
            keyOf registered.publicKey = some key

def ListsBound : Prop :=
  ∀ userId, ∀ row ∈ s.db.listDevices userId, BindsKey crypto row.deviceId row.publicKey

/-- No two keys that were presented have one fingerprint. -/
def Collisionless : Prop :=
  ∀ c ∈ s.calls, ∀ c' ∈ s.calls, ∀ key ∈ keyOf c.request.publicKey,
    ∀ key' ∈ keyOf c'.request.publicKey,
      deviceIdFromPublicKey crypto key = deviceIdFromPublicKey crypto key' → key = key'

/-- What a registration stores is a device with its key, and a row that it creates takes a free
id. -/
def StoresBound : RegistryLabel → Prop
  | .call (.store i true _) => ∀ c ∈ s.calls[i]?,
      (c.stage.creates = true → s.Frees c) ∧ BindsKey crypto c.request.deviceId c.request.publicKey
  | _ => True

theorem unreused_of_storesBound {s : TokenServer} {l : RegistryLabel}
    (h : s.StoresBound crypto l) : s.Unreused l := by
  unfold StoresBound at h
  unfold Unreused
  split
  · exact fun c found => (h c found).1
  · trivial

structure Written : Prop where
  rows : s.RowsBound crypto
  checked : ∀ c ∈ s.calls, c.stage.failed = true ∨ c.request.Checked crypto

variable {crypto hashToken s} {generateToken : Nat → String} {tokenTtlSecs : Option UInt64}
  {s' : TokenServer}

theorem request_setStage {i : Nat} {c : TokenCall} (found : s.calls[i]? = some c)
    (stage : TokenStage) :
    ∀ c' ∈ s.calls, ∃ c'' ∈ (s.setStage i c stage).calls, c''.request = c'.request := by
  intro c' member
  obtain ⟨j, at_⟩ := List.mem_iff_getElem?.mp member
  by_cases same : i = j
  · subst same
    obtain rfl := Option.some.inj (found.symm.trans at_)
    exact ⟨_, List.mem_set (List.getElem?_eq_some_iff.mp found).1 _, rfl⟩
  · refine ⟨c', List.mem_of_getElem? (i := j) ?_, rfl⟩
    rw [setStage, List.getElem?_set_ne same]
    exact at_

theorem RowsBound.of_rows (h : s.RowsBound crypto) (rows : ∀ d ∈ s'.db.devices, d ∈ s.db.devices)
    (requests : ∀ c ∈ s.calls, ∃ c' ∈ s'.calls, c'.request = c.request) : s'.RowsBound crypto := by
  intro d listed
  obtain ⟨bound, c, member, request⟩ := h d (rows d listed)
  obtain ⟨c', member', same⟩ := requests c member
  exact ⟨bound, c', member', same.trans request⟩

/-- A call that is under way was checked. -/
theorem Written.checked_of (h : s.Written crypto) {i : Nat} {c : TokenCall}
    (found : s.calls[i]? = some c) (under : c.stage.failed = false) : c.request.Checked crypto := by
  obtain failed | checked := h.checked c (List.mem_of_getElem? found)
  · exact absurd (failed.symm.trans under) Bool.noConfusion
  · exact checked

theorem Written.checked_set (h : s.Written crypto) {i : Nat} {c : TokenCall}
    {stage : TokenStage} (moved : stage.failed = true ∨ c.request.Checked crypto) :
    ∀ c' ∈ (s.setStage i c stage).calls, c'.stage.failed = true ∨ c'.request.Checked crypto :=
  Slots.forall_mem_set h.checked moved

theorem Written.step (held : s.Held generateToken hashToken) (h : s.Written crypto)
    {l : RegistryLabel} (met : s.StoresBound crypto l)
    (moved : s.Moves crypto generateToken hashToken tokenTtlSecs l s') : s'.Written crypto := by
  cases moved with
  | idle told same => exact same ▸ h
  | arrives c told unused waits checked same =>
      subst same
      refine ⟨h.rows.of_rows (fun _ listed => listed) ?_,
        Slots.forall_mem_concat h.checked checked⟩
      intro c' member
      exact ⟨c', List.mem_append_left _ member, rfl⟩
  | ends i c stage found told failed db calls generated =>
      refine ⟨h.rows.of_rows (fun _ listed => db ▸ listed) ?_, ?_⟩
      · exact calls ▸ request_setStage found stage
      · exact calls ▸ h.checked_set (.inl failed)
  | selects i c found told stage same =>
      subst same
      refine ⟨h.rows.of_rows (fun _ listed => listed) (request_setStage found _), ?_⟩
      exact h.checked_set (.inr (h.checked_of found (by rw [stage]; rfl)))
  | updates i c id userId body now label found stage request same =>
      subst same label
      obtain ⟨-, bound⟩ := met c found
      refine ⟨fun d' listed => ?_, h.checked_set (.inr (h.checked_of found (by rw [stage]; rfl)))⟩
      obtain ⟨d, before, rfl⟩ := List.mem_map.mp listed
      by_cases own : d.id = id
      · have holds := (held.calls c (List.mem_of_getElem? found)).holds id (by rw [stage]; rfl)
        obtain ⟨device, account⟩ := holds d before own
        have account := account userId (by rw [request]; rfl)
        rw [request] at device bound
        rw [if_pos own]
        refine ⟨?_, _, List.mem_set (List.getElem?_eq_some_iff.mp found).1 _, ?_⟩
        · exact (congrArg (BindsKey crypto · body.publicKey) device).mpr bound
        · simp only [request, Device.body, account, device, TokenRequest.deviceId]
      · rw [if_neg own]
        have rows : (s.setStage i c (.deleting id)).RowsBound crypto :=
          h.rows.of_rows (fun _ listed => listed) (request_setStage found _)
        exact rows d before
  | creates i c userId body now label found stage request absent same =>
      subst same label
      obtain ⟨-, bound⟩ := met c found
      refine ⟨fun d listed => ?_, h.checked_set (.inr (h.checked_of found (by rw [stage]; rfl)))⟩
      obtain before | new := List.mem_append.mp listed
      · have rows : (s.setStage i c (.deleting s.db.nextId)).RowsBound crypto :=
          h.rows.of_rows (fun _ listed => listed) (request_setStage found _)
        exact rows d before
      · obtain rfl := List.mem_singleton.mp new
        rw [request] at bound
        exact ⟨bound, _, List.mem_set (List.getElem?_eq_some_iff.mp found).1 _, request⟩
  | clears i c devicePk found stage told same =>
      subst same
      refine ⟨h.rows.of_rows (fun _ listed => listed) (request_setStage found _), ?_⟩
      exact h.checked_set (.inr (h.checked_of found (by rw [stage]; rfl)))
  | stores i c devicePk now found stage admits told same =>
      subst same
      refine ⟨h.rows.of_rows (fun _ listed => listed) (request_setStage found _), ?_⟩
      exact h.checked_set (.inr (h.checked_of found (by rw [stage]; rfl)))
  | removes userId deviceId label same =>
      subst same
      refine ⟨h.rows.of_rows (fun d listed => List.mem_of_mem_filter listed) ?_, h.checked⟩
      exact fun c member => ⟨c, member, rfl⟩

theorem RowsBound.listsBound (h : s.RowsBound crypto) : s.ListsBound crypto := by
  intro userId row listed
  obtain ⟨d, sorted, rfl⟩ := List.mem_map.mp listed
  exact (h d (List.mem_of_mem_filter (List.mem_mergeSort.mp sorted))).1

theorem Written.refreshesBound (held : s.Held generateToken hashToken) (h : s.Written crypto)
    (collisionless : s.Collisionless crypto) : s.RefreshesBound crypto hashToken := by
  intro c member body request token given
  have checked : c.request.Checked crypto := by
    obtain failed | checked := h.checked c member
    · exact absurd given (TokenStage.ne_ok_of_failed failed token)
    · exact checked
  rw [request] at checked
  obtain ⟨time, passed⟩ := checked
  obtain ⟨key, signed⟩ := RefreshToken.signedWith_of_check passed
  refine ⟨key, signed, fun now userId deviceId resolves => ?_⟩
  obtain ⟨n, -, rfl, denotes⟩ := (held.calls c member).returned token given
  obtain ⟨t, stored, d, listed, hash, -, id, same⟩ := DeviceDb.of_resolve resolves
  obtain ⟨rfl, rfl⟩ := Prod.mk.inj same
  have device := (denotes t stored hash d listed id).1
  rw [request] at device
  obtain ⟨bound, c', member', registered⟩ := h.rows d listed
  obtain ⟨key', decoded, fingerprint⟩ := Option.map_eq_some_iff.mp bound
  refine ⟨device, c', member', d.body, registered, device, ?_⟩
  have same : key' = key := by
    refine collisionless c' member' c member key' ?_ key ?_ ?_
    · rw [registered]
      exact decoded
    · rw [request]
      exact signed.1
    · exact (fingerprint.trans device).trans signed.2.1.symm
  exact same ▸ decoded

/-- In a run in which each registration stores a device with its key, and no row is given an id
that is still in use, the registry binds every device to its key. -/
theorem registry_bound (distinct : TokenHistory.Distinct generateToken hashToken s.generated)
    (run : (registry crypto generateToken hashToken tokenTtlSecs).ReachableBy
      (StoresBound crypto) s) (collisionless : s.Collisionless crypto) :
    s.RowsBound crypto ∧ s.RefreshesBound crypto hashToken ∧ s.ListsBound crypto := by
  have both : TokenHistory.Distinct generateToken hashToken s.generated →
      s.Held generateToken hashToken ∧ s.Written crypto := by
    refine run.invariant (I := fun s => TokenHistory.Distinct generateToken hashToken s.generated →
      s.Held generateToken hashToken ∧ s.Written crypto) ?_ ?_
    · rintro s rfl -
      exact ⟨held_nil, nofun, nofun⟩
    · intro s l s' both met stepped distinct
      have moved := registryStep_moves stepped
      obtain ⟨held, h⟩ := both (distinct.earlier moved.tokens.1)
      exact ⟨held.step distinct (unreused_of_storesBound crypto met) moved, h.step held met moved⟩
  obtain ⟨held, h⟩ := both distinct
  exact ⟨h.rows, h.refreshesBound held collisionless, h.rows.listsBound⟩

instance (deviceId publicKey : String) : Decidable (BindsKey crypto deviceId publicKey) :=
  inferInstanceAs (Decidable (Option.map _ _ = _))

instance : ∀ l, Decidable (s.StoresBound crypto l)
  | .call (.store i true _) => inferInstanceAs (Decidable (∀ c ∈ s.calls[i]?,
      (c.stage.creates = true → s.Frees c) ∧
        BindsKey crypto c.request.deviceId c.request.publicKey))
  | .call (.store _ false _) | .call (.register ..) | .call (.refresh ..) | .call (.select ..)
  | .call (.delete ..) | .call (.insert ..) | .call (.abort _) | .deleteDevice .. => .isTrue trivial

instance : Decidable (s.Collisionless crypto) :=
  inferInstanceAs (Decidable (∀ c ∈ s.calls, ∀ c' ∈ s.calls, ∀ key ∈ keyOf c.request.publicKey,
    ∀ key' ∈ keyOf c'.request.publicKey,
      deviceIdFromPublicKey crypto key = deviceIdFromPublicKey crypto key' → key = key'))

def sampleKeyText (n : UInt8) : String := String.ofList (hexEncode (List.replicate 32 n))

/-- The device of `n` under the key of `m`. -/
def sampleBody (n m : UInt8) : RegisterDevice where
  deviceId := sampleDeviceId n
  name := "desk"
  publicKey := sampleKeyText m

/-- The holder of the key of `n` refreshes. -/
def sampleRefresh (n : UInt8) : RefreshToken where
  deviceId := sampleDeviceId n
  publicKey := sampleKeyText n
  timestamp := 0
  signature := String.ofList
    (hexEncode (sampleSign (RefreshToken.message (List.replicate 32 n) 0)))

def registerThenRefresh (n m : UInt8) : List RegistryLabel :=
  [.call (.register (.ok 1) (sampleBody n m)), .call (.select 0 true)] ++ finishing 0 ++
    [.call (.refresh (sampleRefresh n) 0), .call (.select 1 true), .call (.delete 1 true),
      .call (.insert 1 true 0)]

theorem registry_bound_refresh : ∃ s,
    (registry sampleCrypto TokenHistory.sampleToken id none).ReachableBy
      (StoresBound sampleCrypto) s ∧
      s.db.resolve id (TokenHistory.sampleToken 1) 0 = some (1, sampleDeviceId 7) ∧
      s.RowsBound sampleCrypto ∧ s.RefreshesBound sampleCrypto id ∧ s.ListsBound sampleCrypto := by
  obtain ⟨s, run, resolves, collisionless⟩ := Machine.exists_reachableBy
    (registry sampleCrypto TokenHistory.sampleToken id none) (StoresBound sampleCrypto)
    (s := ⟨⟨[], []⟩, [], 0⟩) rfl (registerThenRefresh 7 7)
    (fun s => s.db.resolve id (TokenHistory.sampleToken 1) 0 = some (1, sampleDeviceId 7) ∧
      s.Collisionless sampleCrypto) (by decide +kernel)
  exact ⟨s, run, resolves, registry_bound (TokenHistory.sampleToken_distinct _) run collisionless⟩

/-- An account registers another's device id with a key of its own: the registry lists the two as
one device, and the token that the holder of the real key is given stands for that account. -/
theorem registry_unbound : ∃ s,
    (registry sampleCrypto TokenHistory.sampleToken id none).Reachable s ∧
      s.Collisionless sampleCrypto ∧ ¬ s.RowsBound sampleCrypto ∧
        ¬ s.RefreshesBound sampleCrypto id ∧ ¬ s.ListsBound sampleCrypto := by
  obtain ⟨s, run, collisionless, listed, given, resolves, never⟩ := Machine.exists_reachableBy
    (registry sampleCrypto TokenHistory.sampleToken id none) Machine.Always
    (s := ⟨⟨[], []⟩, [], 0⟩) rfl (registerThenRefresh 7 9)
    (fun s => s.Collisionless sampleCrypto ∧
      (∃ row ∈ s.db.listDevices 1, ¬ BindsKey sampleCrypto row.deviceId row.publicKey) ∧
      (∃ c ∈ s.calls, c.refreshed (sampleKeyText 7) (TokenHistory.sampleToken 1) = true) ∧
      s.db.resolve id (TokenHistory.sampleToken 1) 0 = some (1, sampleDeviceId 7) ∧
      ∀ c ∈ s.calls, c.registers (sampleKeyText 7) = false) (by decide +kernel)
  have lists : ¬ s.ListsBound sampleCrypto := by
    obtain ⟨row, member, loose⟩ := listed
    exact fun bound => loose (bound 1 row member)
  refine ⟨s, run, collisionless, fun rows => lists rows.listsBound, fun refreshes => ?_, lists⟩
  obtain ⟨c, member, given⟩ := given
  unfold TokenCall.refreshed at given
  split at given
  · rename_i body request
    obtain ⟨sent, given⟩ := Bool.and_eq_true_iff.mp given
    obtain ⟨token, stage, text⟩ := TokenStage.returned_of_token (eq_of_beq given)
    obtain ⟨key, signed, registered⟩ := refreshes c member body request token stage
    obtain ⟨-, c', member', other, request', -, same⟩ := registered 0 _ _ (text ▸ resolves)
    have none_ := never c' member'
    simp only [TokenCall.registers, request', same, beq_eq_false_iff_ne] at none_
    exact none_ (signed.1.symm.trans (congrArg keyOf (eq_of_beq sent)))
  · cases given

end TokenServer
end ReachMyDevice
