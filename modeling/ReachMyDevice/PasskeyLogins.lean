import ReachMyDevice.PasskeyCeremonies

/-!
# Logins by passkey

An assertion that has been verified stays so, while the credential may go from
the table before the session is minted. Its counter is read by one statement
and written by another.
-/
namespace ReachMyDevice
open Machines SingleUse

theorem Webauthn.signCount_of_stored {wa : Webauthn} {json : String} {pk : wa.Passkey}
    (stored : wa.fromJson json = some pk) : wa.signCount json = wa.counter pk := by
  rw [signCount, stored]
  rfl

/-- Each row is named after the credential that it stores, and no other row is. -/
structure TableSound (wa : Webauthn) (rows : List CredentialRow) : Prop where
  keyed : (rows.map (·.credentialId)).Nodup
  named : ∀ row ∈ rows, ∃ pk, wa.fromJson row.passkey = some pk ∧
    row.credentialId = wa.credIdB64 (wa.credId pk)

namespace TableSound
variable {wa : Webauthn} {rows : List CredentialRow}

theorem unique (h : TableSound wa rows) {row row' : CredentialRow} (listed : row ∈ rows)
    (listed' : row' ∈ rows) (same : row.credentialId = row'.credentialId) : row = row' :=
  List.inj_on_of_nodup_map h.keyed listed listed' same

theorem map (h : TableSound wa rows) {change : CredentialRow → CredentialRow}
    (id : ∀ row, (change row).credentialId = row.credentialId)
    (stores : ∀ row ∈ rows, ∃ pk, wa.fromJson (change row).passkey = some pk ∧
      row.credentialId = wa.credIdB64 (wa.credId pk)) : TableSound wa (rows.map change) := by
  constructor
  · have names : (fun row : CredentialRow => row.credentialId) ∘ change = (·.credentialId) := by
      funext row
      exact id row
    rw [List.map_map, names]
    exact h.keyed
  · intro row' member
    obtain ⟨row, listed, rfl⟩ := List.mem_map.mp member
    rw [id]
    exact stores row listed

theorem filter (h : TableSound wa rows) (keeps : CredentialRow → Bool) :
    TableSound wa (rows.filter keeps) := by
  constructor
  · exact h.keyed.sublist (List.filter_sublist.map _)
  · intro row member
    exact h.named row (List.mem_of_mem_filter member)

theorem insert (h : TableSound wa rows) {row : CredentialRow}
    (fresh : ∀ old ∈ rows, old.credentialId ≠ row.credentialId) {pk : wa.Passkey}
    (stored : wa.fromJson row.passkey = some pk)
    (name : row.credentialId = wa.credIdB64 (wa.credId pk)) : TableSound wa (rows ++ [row]) := by
  constructor
  · rw [List.map_append, List.nodup_append]
    refine ⟨h.keyed, List.nodup_singleton _, ?_⟩
    intro old listed new last
    obtain ⟨before, member, rfl⟩ := List.mem_map.mp listed
    rw [List.mem_singleton.mp last]
    exact fresh before member
  · intro row' member
    rcases List.mem_append.mp member with before | last
    · exact h.named row' before
    · rw [List.mem_singleton.mp last]
      exact ⟨pk, stored, name⟩

end TableSound

namespace PasskeyServer
variable {wa : Webauthn} (generateToken : Nat → String) (hashToken : String → String)
  (s : PasskeyServer wa)

/-- The user has the credential. -/
def owns (userId : Int) (credentialId : String) : Bool :=
  s.rows.any (·.isOf userId credentialId)

/-- A login verifies an assertion only while its user has the credential, and until it has minted
its session the credential is not deleted; a passkey is replaced only if it is the one that was
read, or has a counter that the assertion does not go back behind. -/
def meets : PasskeyLabel wa → Bool
  | .finish i now =>
    match s.calls[i]? with
    | some ⟨.loginFinish state credential, _⟩ =>
      (s.auth.got now state).all fun (userId, auth) =>
        (wa.finishAuthentication credential auth).isNone ||
          s.owns userId (wa.credIdB64 (wa.signer credential))
    | _ => true
  | .update i true _ =>
    match s.calls[i]? with
    | some ⟨_, .updating userId result old _⟩ =>
      s.rows.all fun row => !row.isOf userId (wa.credIdB64 result.credId) ||
        (row.passkey == old || decide (wa.signCount row.passkey ≤ result.counter))
    | _ => true
  | .delete i true =>
    match s.calls[i]? with
    | some ⟨.deleteCredential _ id, .authed userId⟩ =>
      s.rows.all fun row => !row.hit id userId ||
        s.calls.all fun c => c.stage.asserted.all fun (owner, result) =>
          !row.isOf owner (wa.credIdB64 result.credId)
    | _ => true
  | _ => true

/-- A new session is minted for the user who has the credential that was asserted. -/
def MintsOwned (s : PasskeyServer wa) (l : PasskeyLabel wa) (s' : PasskeyServer wa) : Prop :=
  ∀ session ∈ s'.creds.sessions, session ∉ s.creds.sessions →
    ∃ i ok now c state credential, l = .mint i ok now ∧ s.calls[i]? = some c ∧
      c.request = .loginFinish state credential ∧
      ∃ row ∈ s.rows, row.userId = session.userId ∧
        (wa.fromJson row.passkey).map wa.credId = some (wa.signer credential)

/-- The counter of a credential that stays in the table does not go back. -/
def CountersKept (s s' : PasskeyServer wa) : Prop :=
  ∀ row ∈ s.rows, ∀ row' ∈ s'.rows, row'.credentialId = row.credentialId →
    wa.signCount row.passkey ≤ wa.signCount row'.passkey

/-- What a call has found out is so. -/
structure CallSound (c : PasskeyCall wa) : Prop where
  asserted : ∀ userId result, c.stage.asserted = some (userId, result) →
    (∃ state credential, c.request = .loginFinish state credential ∧
      result.credId = wa.signer credential) ∧ s.owns userId (wa.credIdB64 result.credId) = true
  updating : ∀ userId result old json, c.stage = .updating userId result old json →
    ∃ pk, wa.fromJson old = some pk ∧ wa.credId pk = result.credId ∧
      wa.toJson (wa.updateCredential pk result) = some json
  inserting : ∀ userId credentialId json, c.stage = .inserting userId credentialId json →
    ∃ pk, wa.toJson pk = some json ∧ credentialId = wa.credIdB64 (wa.credId pk)

structure Sound : Prop where
  table : TableSound wa s.rows
  calls : ∀ c ∈ s.calls, s.CallSound c

variable {generateToken hashToken s} {s' : PasskeyServer wa} {l : PasskeyLabel wa} {i : Nat}
  {c : PasskeyCall wa} {stage : PasskeyStage wa}

theorem owns_iff {userId : Int} {credentialId : String} : s.owns userId credentialId = true ↔
    ∃ row ∈ s.rows, row.userId = userId ∧ row.credentialId = credentialId := by
  simp only [owns, List.any_eq_true, CredentialRow.isOf, Bool.and_eq_true, beq_iff_eq]

/-! ## What the condition says of a step -/

theorem owns_of_meets {state : String} {credential : wa.Assertion} {now : Nat} {userId : Int}
    {auth : wa.Authentication} {result : AuthenticationResult} (found : s.calls[i]? = some c)
    (request : c.request = .loginFinish state credential)
    (met : s.meets (.finish i now) = true) (got : s.auth.got now state = some (userId, auth))
    (verified : wa.finishAuthentication credential auth = some result) :
    s.owns userId (wa.credIdB64 (wa.signer credential)) = true := by
  obtain ⟨request', stage⟩ := c
  obtain rfl : request' = _ := request
  simp only [meets, found, got, Option.all_some, verified, Option.isNone_some,
    Bool.false_or] at met
  exact met

theorem replaces_of_meets {userId : Int} {result : AuthenticationResult} {old json : String}
    {now : Int64} (found : s.calls[i]? = some c)
    (was : c.stage = .updating userId result old json)
    (met : s.meets (.update i true now) = true) {row : CredentialRow} (listed : row ∈ s.rows)
    (isOf : row.isOf userId (wa.credIdB64 result.credId) = true) :
    row.passkey = old ∨ wa.signCount row.passkey ≤ result.counter := by
  obtain ⟨request, stage⟩ := c
  obtain rfl : stage = _ := was
  simp only [meets, found, List.all_eq_true] at met
  have replaced := met row listed
  rw [isOf, Bool.not_true, Bool.false_or, Bool.or_eq_true, beq_iff_eq, decide_eq_true_eq]
    at replaced
  exact replaced

theorem unused_of_meets {user : Except AppError Int} {id : Nat} {userId : Int}
    (found : s.calls[i]? = some c) (request : c.request = .deleteCredential user id)
    (was : c.stage = .authed userId) (met : s.meets (.delete i true) = true)
    {row : CredentialRow} (listed : row ∈ s.rows) (hit : row.hit id userId = true)
    {login : PasskeyCall wa} (member : login ∈ s.calls) {owner : Int}
    {result : AuthenticationResult} (asserted : login.stage.asserted = some (owner, result)) :
    row.isOf owner (wa.credIdB64 result.credId) = false := by
  obtain ⟨request', stage⟩ := c
  obtain rfl : request' = _ := request
  obtain rfl : stage = _ := was
  simp only [meets, found, List.all_eq_true] at met
  have unused := met row listed
  rw [hit, Bool.not_true, Bool.false_or, List.all_eq_true] at unused
  have apart := unused login member
  rw [asserted, Option.all_some, Bool.not_eq_true'] at apart
  exact apart

/-! ## What a step keeps -/

theorem callSound_of_plain (plain : c.stage.plain = true) : s.CallSound c := by
  constructor
  · intro userId result asserted
    cases (PasskeyStage.asserted_of_plain plain).symm.trans asserted
  · intro userId result old json was
    rw [was] at plain
    cases plain
  · intro userId credentialId json was
    rw [was] at plain
    cases plain

/-- A call that has verified nothing more than before. -/
theorem CallSound.of_owns (h : s.CallSound c)
    (owns : ∀ userId result, c.stage.asserted = some (userId, result) →
      s.owns userId (wa.credIdB64 result.credId) = true →
        s'.owns userId (wa.credIdB64 result.credId) = true) : s'.CallSound c := by
  refine ⟨?_, h.updating, h.inserting⟩
  intro userId result asserted
  obtain ⟨request, had⟩ := h.asserted userId result asserted
  exact ⟨request, owns userId result asserted had⟩

/-- The call that takes the step is sound, and the others stay so. -/
theorem Sound.sets (h : s.Sound) (calls : s'.calls = s.calls.set i { c with stage })
    (table : TableSound wa s'.rows)
    (owns : ∀ userId credentialId, s.owns userId credentialId = true →
      s'.owns userId credentialId = true)
    (own : s'.CallSound { c with stage }) : s'.Sound := by
  refine ⟨table, ?_⟩
  rw [calls]
  refine Slots.forall_mem_set ?_ own
  intro c' old
  exact (h.calls c' old).of_owns fun userId result _ => owns userId _

/-- A login that goes on to mint. -/
theorem callSound_minting {userId : Int} {result : AuthenticationResult} (h : s.CallSound c)
    (was : c.stage.asserted = some (userId, result))
    (owns : ∀ userId credentialId, s.owns userId credentialId = true →
      s'.owns userId credentialId = true) :
    s'.CallSound { c with stage := .minting userId result } := by
  constructor
  · rintro userId' result' ⟨⟩
    obtain ⟨request, had⟩ := h.asserted userId result was
    exact ⟨request, owns _ _ had⟩
  · rintro _ _ _ _ ⟨⟩
  · rintro _ _ _ ⟨⟩

theorem callSound_attested {userId : Int} {credential : wa.Attestation}
    {taken : Option (Int × wa.Registration)} :
    s.CallSound { c with stage := attested userId credential taken } := by
  unfold attested
  split
  · exact callSound_of_plain rfl
  · split
    · exact callSound_of_plain rfl
    · split
      · exact callSound_of_plain rfl
      · rename_i passkey _
        split
        · exact callSound_of_plain rfl
        · rename_i json written
          constructor
          · rintro _ _ ⟨⟩
          · rintro _ _ _ _ ⟨⟩
          · rintro _ _ _ ⟨⟩
            exact ⟨passkey, written, rfl⟩

theorem callSound_asserted (lawful : wa.Lawful) {state : String} {credential : wa.Assertion}
    {now : Nat} (found : s.calls[i]? = some c) (request : c.request = .loginFinish state credential)
    (met : s.meets (.finish i now) = true)
    (owns : ∀ userId credentialId, s.owns userId credentialId = true →
      s'.owns userId credentialId = true) :
    s'.CallSound { c with stage := asserted credential (s.auth.got now state) } := by
  unfold asserted
  split
  · exact callSound_of_plain rfl
  · rename_i userId auth got
    split
    · exact callSound_of_plain rfl
    · rename_i result verified
      have signed := lawful.signed credential auth result verified
      constructor
      · rintro _ _ ⟨⟩
        refine ⟨⟨state, credential, request, signed⟩, owns _ _ ?_⟩
        rw [signed]
        exact owns_of_meets found request met got verified
      · rintro _ _ _ _ ⟨⟩
      · rintro _ _ _ ⟨⟩

theorem owns_of_map (s' : PasskeyServer wa) {change : CredentialRow → CredentialRow}
    (rows : s'.rows = s.rows.map change) (user : ∀ row, (change row).userId = row.userId)
    (id : ∀ row, (change row).credentialId = row.credentialId) (userId : Int)
    (credentialId : String) (had : s.owns userId credentialId = true) :
    s'.owns userId credentialId = true := by
  obtain ⟨row, listed, owner, name⟩ := owns_iff.mp had
  apply owns_iff.mpr
  refine ⟨change row, ?_, (user row).trans owner, (id row).trans name⟩
  rw [rows]
  exact List.mem_map_of_mem listed

theorem owns_of_subset (subset : s.rows ⊆ s'.rows) (userId : Int) (credentialId : String)
    (had : s.owns userId credentialId = true) : s'.owns userId credentialId = true := by
  obtain ⟨row, listed, owner⟩ := owns_iff.mp had
  exact owns_iff.mpr ⟨row, subset listed, owner⟩

/-- What replaces a passkey is of the same credential. -/
theorem updateRow_stores (lawful : wa.Lawful) {userId : Int} {result : AuthenticationResult}
    {pk : wa.Passkey} {json : String} {row : CredentialRow}
    (isOf : row.isOf userId (wa.credIdB64 result.credId) = true)
    (of : wa.credId pk = result.credId)
    (next : wa.toJson (wa.updateCredential pk result) = some json) :
    ∃ pk', wa.fromJson json = some pk' ∧ row.credentialId = wa.credIdB64 (wa.credId pk') := by
  refine ⟨_, lawful.stored _ json next, ?_⟩
  rw [lawful.same, of]
  exact beq_iff_eq.mp (Bool.and_eq_true_iff.mp isOf).2

theorem Sound.updates (h : s.Sound) (lawful : wa.Lawful) {userId : Int}
    {result : AuthenticationResult} {old json : String} {now : Int64}
    (found : s.calls[i]? = some c) (was : c.stage = .updating userId result old json) :
    ({ s.setStage i c (.minting userId result) with
      rows := s.updateRow userId (wa.credIdB64 result.credId) fun row =>
        { row with passkey := json, lastUsedAt := some now } } : PasskeyServer wa).Sound := by
  have sound := h.calls c (List.mem_of_getElem? found)
  obtain ⟨pk, -, of, next⟩ := sound.updating userId result old json was
  have owns := owns_of_map (s := s) { s.setStage i c (.minting userId result) with
    rows := s.updateRow userId (wa.credIdB64 result.credId) fun row =>
      { row with passkey := json, lastUsedAt := some now } } rfl
    (by intro row; split <;> rfl) (by intro row; split <;> rfl)
  refine h.sets rfl (h.table.map ?_ ?_) owns (callSound_minting sound (by rw [was]; rfl) owns)
  · intro row
    split <;> rfl
  · intro row listed
    split
    · rename_i isOf
      exact updateRow_stores lawful isOf of next
    · exact h.table.named row listed

theorem Sound.deletes (h : s.Sound) {user : Except AppError Int} {id : Nat} {userId : Int}
    (found : s.calls[i]? = some c) (request : c.request = .deleteCredential user id)
    (was : c.stage = .authed userId) (plain : stage.plain = true)
    (met : s.meets (.delete i true) = true) :
    ({ s.setStage i c stage with
      rows := s.rows.filter (!·.hit id userId) } : PasskeyServer wa).Sound := by
  refine ⟨h.table.filter _, Slots.forall_mem_set ?_ (callSound_of_plain plain)⟩
  intro c' old
  refine (h.calls c' old).of_owns fun owner result asserted had => ?_
  -- the row that a login counts on is not the one that is deleted
  obtain ⟨row, listed, isOf⟩ := List.any_eq_true.mp had
  refine List.any_eq_true.mpr ⟨row, List.mem_filter.mpr ⟨listed, ?_⟩, isOf⟩
  rw [Bool.not_eq_true', ← Bool.not_eq_true]
  intro hit
  have apart := unused_of_meets found request was met listed hit old asserted
  cases apart.symm.trans isOf

theorem Sound.step (lawful : wa.Lawful) (h : s.Sound) (met : s.meets l = true)
    (step : s.step generateToken hashToken l = some s') : s'.Sound := by
  cases step_does step with
  | arrives request told same =>
      subst same
      refine ⟨h.table, Slots.forall_mem_concat ?_
        (callSound_of_plain (PasskeyStage.plain_admitted request))⟩
      intro c' old
      exact (h.calls c' old).of_owns fun _ _ _ had => had
  | goes i c stage found told plain still calls rows reg auth clock generated sessions =>
      have subset : s.rows ⊆ s'.rows := by
        rw [rows]
        exact List.Subset.refl _
      refine h.sets calls ?_ (owns_of_subset subset) (callSound_of_plain plain)
      rw [rows]
      exact h.table
  | putsReg i c owner reg now found le told same =>
      subst same
      exact h.sets rfl h.table (fun _ _ had => had) (callSound_of_plain rfl)
  | putsAuth i c owner auth now found le told same =>
      subst same
      exact h.sets rfl h.table (fun _ _ had => had) (callSound_of_plain rfl)
  | takesReg i c userId state credential now label found own other le told same =>
      subst same
      exact h.sets rfl h.table (fun _ _ had => had) callSound_attested
  | takesAuth i c state credential now label found request le told same =>
      subst same label
      exact h.sets rfl h.table (fun _ _ had => had)
        (callSound_asserted lawful found request met fun _ _ had => had)
  | inserts i c userId credentialId json now found told stage admits same =>
      subst same
      obtain ⟨pk, written, name⟩ :=
        (h.calls c (List.mem_of_getElem? found)).inserting userId credentialId json stage
      refine h.sets rfl (h.table.insert ?_ (lawful.stored pk json written) name)
        (owns_of_subset (List.subset_append_left _ _)) (callSound_of_plain rfl)
      intro old listed
      exact bne_iff_ne.mp (List.all_eq_true.mp (Bool.and_eq_true_iff.mp admits).2 old listed)
  | selects i c userId result row pk json found told stage listed isOf stored next same =>
      subst same
      have sound := h.calls c (List.mem_of_getElem? found)
      refine h.sets rfl h.table (fun _ _ had => had) ⟨?_, ?_, ?_⟩
      · rintro _ _ ⟨⟩
        exact sound.asserted userId result (by rw [stage]; rfl)
      · rintro _ _ _ _ ⟨⟩
        obtain ⟨pk', stored', name⟩ := h.table.named row listed
        obtain rfl := Option.some.inj (stored.symm.trans stored')
        have same := name.symm.trans (beq_iff_eq.mp (Bool.and_eq_true_iff.mp isOf).2)
        exact ⟨pk, stored, lawful.encoded same, next⟩
      · rintro _ _ _ ⟨⟩
  | passes i c userId result used found told stage same =>
      subst same
      have owns := owns_of_map (s := s) { s.setStage i c (.minting userId result) with
        rows := s.rows.map fun row => { row with lastUsedAt := used row } } rfl
        (fun _ => rfl) (fun _ => rfl)
      exact h.sets rfl (h.table.map (fun _ => rfl) h.table.named) owns
        (callSound_minting (h.calls c (List.mem_of_getElem? found)) stage owns)
  | updates i c userId result old json now label found told stage same =>
      subst same
      exact h.updates lawful found stage
  | mints i c userId result ok now label found told stage same =>
      subst same
      exact h.sets rfl h.table (fun _ _ had => had) (callSound_of_plain rfl)
  | deletes i c user id userId stage label found told request was plain still same =>
      subst same label
      exact h.deletes found request was plain met

/-! ## Counters -/

theorem countersKept_of_old (table : TableSound wa s.rows)
    (old : ∀ row' ∈ s'.rows, row' ∈ s.rows ∨
      ∀ row ∈ s.rows, row.credentialId ≠ row'.credentialId) : s.CountersKept s' := by
  intro row listed row' listed' same
  rcases old row' listed' with before | new
  · rw [table.unique before listed same]
  · exact absurd same.symm (new row listed)

theorem countersKept_of_map (table : TableSound wa s.rows)
    {change : CredentialRow → CredentialRow} (rows : s'.rows = s.rows.map change)
    (id : ∀ row, (change row).credentialId = row.credentialId)
    (grows : ∀ row ∈ s.rows, wa.signCount row.passkey ≤ wa.signCount (change row).passkey) :
    s.CountersKept s' := by
  intro row listed row' listed' same
  rw [rows] at listed'
  obtain ⟨before, was, rfl⟩ := List.mem_map.mp listed'
  rw [id] at same
  rw [← table.unique was listed same]
  exact grows before was

/-- What replaces a passkey is ahead of it. -/
theorem updates_grow (lawful : wa.Lawful) {pk : wa.Passkey} {result : AuthenticationResult}
    {old json stored : String} (read : wa.fromJson old = some pk)
    (of : wa.credId pk = result.credId)
    (next : wa.toJson (wa.updateCredential pk result) = some json)
    (replaces : stored = old ∨ wa.signCount stored ≤ result.counter) :
    wa.signCount stored ≤ wa.signCount json := by
  rw [Webauthn.signCount_of_stored (lawful.stored _ json next)]
  rcases replaces with rfl | behind
  · rw [Webauthn.signCount_of_stored read]
    exact lawful.kept pk result
  · exact Nat.le_trans behind (lawful.advanced pk result of)

theorem Sound.countersKept (lawful : wa.Lawful) (h : s.Sound) (met : s.meets l = true)
    (step : s.step generateToken hashToken l = some s') : s.CountersKept s' := by
  have stays : s'.rows = s.rows → s.CountersKept s' := by
    intro rows
    apply countersKept_of_old h.table
    intro row' listed
    rw [rows] at listed
    exact .inl listed
  cases step_does step with
  | arrives request told same =>
      subst same
      exact stays rfl
  | goes i c stage found told plain still calls rows reg auth clock generated sessions =>
      exact stays rows
  | putsReg i c owner reg now found le told same =>
      subst same
      exact stays rfl
  | putsAuth i c owner auth now found le told same =>
      subst same
      exact stays rfl
  | takesReg i c userId state credential now label found own other le told same =>
      subst same
      exact stays rfl
  | takesAuth i c state credential now label found request le told same =>
      subst same
      exact stays rfl
  | inserts i c userId credentialId json now found told stage admits same =>
      subst same
      apply countersKept_of_old h.table
      intro row' listed
      rcases List.mem_append.mp listed with before | last
      · exact .inl before
      · rw [List.mem_singleton.mp last]
        refine .inr fun row listed => ?_
        exact bne_iff_ne.mp (List.all_eq_true.mp (Bool.and_eq_true_iff.mp admits).2 row listed)
  | selects i c userId result row pk json found told stage listed isOf stored next same =>
      subst same
      exact stays rfl
  | passes i c userId result used found told stage same =>
      exact countersKept_of_map h.table (congrArg PasskeyServer.rows same) (fun _ => rfl)
        fun _ _ => Nat.le_refl _
  | updates i c userId result old json now label found told stage same =>
      subst label
      refine countersKept_of_map h.table (congrArg PasskeyServer.rows same) ?_ ?_
      · intro row
        split <;> rfl
      · intro row listed
        split
        · rename_i isOf
          obtain ⟨pk, read, of, next⟩ :=
            (h.calls c (List.mem_of_getElem? found)).updating userId result old json stage
          exact updates_grow lawful read of next (replaces_of_meets found stage met listed isOf)
        · exact Nat.le_refl _
  | mints i c userId result ok now label found told stage same =>
      subst same
      exact stays rfl
  | deletes i c user id userId stage label found told request was plain still same =>
      apply countersKept_of_old h.table
      intro row' listed
      rw [same] at listed
      exact .inl (List.mem_of_mem_filter listed)

/-! ## Sessions -/

theorem Sound.mintsOwned (lawful : wa.Lawful) (h : s.Sound)
    (step : s.step generateToken hashToken l = some s') : s.MintsOwned l s' := by
  have none_ : s'.creds.sessions = s.creds.sessions → s.MintsOwned l s' := by
    intro sessions session listed new
    rw [sessions] at listed
    exact absurd listed new
  cases step_does step with
  | arrives request told same =>
      subst same
      exact none_ rfl
  | goes i c stage found told plain still calls rows reg auth clock generated sessions =>
      exact none_ sessions
  | putsReg i c owner reg now found le told same =>
      subst same
      exact none_ rfl
  | putsAuth i c owner auth now found le told same =>
      subst same
      exact none_ rfl
  | takesReg i c userId state credential now label found own other le told same =>
      subst same
      exact none_ rfl
  | takesAuth i c state credential now label found request le told same =>
      subst same
      exact none_ rfl
  | inserts i c userId credentialId json now found told stage admits same =>
      subst same
      exact none_ rfl
  | selects i c userId result row pk json found told stage listed isOf stored next same =>
      subst same
      exact none_ rfl
  | passes i c userId result used found told stage same =>
      subst same
      exact none_ rfl
  | updates i c userId result old json now label found told stage same =>
      subst same
      exact none_ rfl
  | mints i c userId result ok now label found told stage same =>
      subst same
      intro session listed new
      obtain ⟨⟨state, credential, request, signed⟩, had⟩ :=
        (h.calls c (List.mem_of_getElem? found)).asserted userId result (by rw [stage]; rfl)
      rcases List.mem_append.mp listed with before | last
      · exact absurd before new
      · rw [List.mem_singleton.mp last]
        obtain ⟨row, there, owner, name⟩ := owns_iff.mp had
        obtain ⟨pk, stored, named⟩ := h.table.named row there
        refine ⟨i, ok, now, c, state, credential, label, found, request, row, there, owner, ?_⟩
        have same := lawful.encoded (named.symm.trans name)
        rw [stored, Option.map_some, same, signed]
  | deletes i c user id userId stage label found told request was plain still same =>
      subst same
      exact none_ rfl

theorem sound_of_reachable (lawful : wa.Lawful) {t : PasskeyServer wa × PasskeyHistory wa}
    (run : (recorded wa generateToken hashToken).ReachableBy (fun t l => t.1.meets l = true) t) :
    t.1.Sound := by
  refine run.invariant (I := fun t => t.1.Sound) ?_ ?_
  · rintro ⟨s, history⟩ ⟨⟨users, clock, rfl⟩, -⟩
    refine ⟨⟨List.nodup_nil, ?_⟩, ?_⟩
    · intro row listed
      cases listed
    · intro c member
      cases member
  · intro t l t' h met step
    exact h.step lawful met (Machine.recording_step_iff.mp step).1

/-- In a run whose steps meet the condition, a ceremony is finished once at most and in time, a
session is minted for the user who has the credential, and no counter goes back. -/
theorem passkeys_hold (lawful : wa.Lawful) (t : PasskeyServer wa × PasskeyHistory wa)
    (fresh : Set.InjOn generateToken (Set.Iio t.1.creds.tokens.generated))
    (run : (recorded wa generateToken hashToken).ReachableBy (fun t l => t.1.meets l = true) t) :
    (∀ state, t.1.calls.countP (·.finishes PasskeyRequest.registration state) ≤
          successes state t.2.1 ∧ successes state t.2.1 ≤ 1 ∧
        t.1.calls.countP (·.finishes PasskeyRequest.authentication state) ≤
          successes state t.2.2 ∧ successes state t.2.2 ≤ 1) ∧
      ∀ l s', t.1.meets l = true → t.1.step generateToken hashToken l = some s' →
        t.1.MintsOwned l s' ∧ InTime t l s' ∧ t.1.CountersKept s' := by
  have kept := kept_of_reachable run fresh
  have sound := sound_of_reachable lawful run
  constructor
  · intro state
    exact ⟨kept.registered state, kept.reg.successes_le_one state, kept.signedIn state,
      kept.auth.successes_le_one state⟩
  · intro l s' met step
    exact ⟨sound.mintsOwned lawful step, kept.inTime step, sound.countersKept lawful met step⟩

/-! ## Runs on fixed inputs -/

/-- A passkey is a number and a counter; what is signed is the challenge and a new counter. -/
@[reducible] def samplePasskeys : Webauthn where
  Passkey := UInt8 × Nat
  Registration := Nat
  Authentication := Nat × List (UInt8 × Nat)
  Attestation := Nat × UInt8
  Assertion := Nat × UInt8 × Nat
  credId pk := [pk.1]
  counter pk := pk.2
  credIdB64 id := String.ofList (id.map Char.ofUInt8)
  toJson pk := some (String.ofList (Char.ofUInt8 pk.1 :: List.replicate pk.2 '+'))
  fromJson json := json.toList.head?.map fun c => (c.toUInt8, json.toList.length - 1)
  startRegistration _ _ _ random := some random
  finishRegistration credential challenge :=
    if credential.1 = challenge then some (credential.2, 0) else none
  startAuthentication passkeys random := some (random, passkeys)
  finishAuthentication credential auth :=
    if credential.1 = auth.1 then
      (auth.2.find? (·.1 == credential.2.1)).bind fun pk =>
        if pk.2 < credential.2.2 then some ⟨[credential.2.1], credential.2.2, true⟩
        else if credential.2.2 = 0 ∧ pk.2 = 0 then some ⟨[credential.2.1], 0, false⟩ else none
    else none
  updateCredential pk result :=
    if [pk.1] = result.credId then (pk.1, max pk.2 result.counter) else pk
  signer credential := [credential.2.1]

theorem toUInt8_ofUInt8 (n : UInt8) : (Char.ofUInt8 n).toUInt8 = n := by
  show n.toUInt32.toUInt8 = n
  simp

theorem samplePasskeys_lawful : samplePasskeys.Lawful where
  signed credential auth result verified := by
    simp only [Option.ite_none_right_eq_some, Option.bind_eq_some_iff] at verified
    obtain ⟨-, pk, -, verified⟩ := verified
    split at verified
    · cases verified
      rfl
    · obtain ⟨-, verified⟩ := Option.ite_none_right_eq_some.mp verified
      cases verified
      rfl
  stored pk json written := by
    obtain rfl := Option.some.inj written
    simp [toUInt8_ofUInt8]
  encoded := by
    intro id id' same
    have chars : id.map Char.ofUInt8 = id'.map Char.ofUInt8 := String.ofList_injective same
    refine (List.map_injective_iff.mpr ?_) chars
    intro a b same
    rw [← toUInt8_ofUInt8 a, same, toUInt8_ofUInt8]
  same pk result := by
    dsimp only
    split <;> rfl
  kept pk result := by
    dsimp only
    split
    · exact Nat.le_max_left _ _
    · exact Nat.le_refl _
  advanced pk result of := by
    dsimp only at of ⊢
    rw [if_pos of]
    exact Nat.le_max_right _ _

def sampleServer : PasskeyServer samplePasskeys where
  creds := ⟨⟨⟨[], []⟩, [], 0⟩, []⟩
  users := [(1, "ann")]
  rows := []
  reg := fun _ => none
  auth := fun _ => none
  clock := 0
  calls := []

/-- A request that starts a ceremony, the `i`th of all requests. -/
def starting (i random now : Nat) (request : PasskeyRequest samplePasskeys) :
    List (PasskeyLabel samplePasskeys) :=
  [.arrive request, .lookUp i true, .load i true, .start i random now]

/-- The user registers a passkey, and starts to sign in with it. -/
def registering : List (PasskeyLabel samplePasskeys) :=
  starting 0 7 1 (.registerStart (.ok 1)) ++
    [.arrive (.registerFinish (.ok 1) (TicketServer.sampleTicket 0) none (7, 65)), .finish 1 2,
      .insert 1 true 0] ++
    starting 2 8 2 (.loginStart "ann") ++
    [.arrive (.loginFinish (TicketServer.sampleTicket 1) (8, 65, 1))]

abbrev sampleMachine := recorded samplePasskeys TicketServer.sampleTicket id

theorem sampleServer_init : sampleMachine.init (sampleServer, ([], [])) :=
  ⟨⟨[(1, "ann")], 0, rfl⟩, rfl⟩

/-- A login that meets the condition mints a session and moves the counter on. -/
theorem passkeys_hold_login : ∃ t : PasskeyServer samplePasskeys × PasskeyHistory samplePasskeys,
    sampleMachine.ReachableBy (fun t l => t.1.meets l = true) t ∧
      t.1.rows.map (fun row => samplePasskeys.signCount row.passkey) = [0] ∧
      (∃ s', t.1.step TicketServer.sampleTicket id (.update 3 true 0) = some s' ∧
        s'.rows.map (fun row => samplePasskeys.signCount row.passkey) = [1] ∧
        t.1.CountersKept s') ∧
      successes (TicketServer.sampleTicket 1) t.2.2 = 1 ∧
      t.1.calls.countP
        (·.finishes PasskeyRequest.authentication (TicketServer.sampleTicket 1)) ≤ 1 := by
  obtain ⟨t, run, counter, once, met, updated⟩ := Machine.exists_reachableBy sampleMachine
    (fun t l => t.1.meets l = true) sampleServer_init
    (registering ++ [.finish 3 3, .select 3 true])
    (fun t => t.1.rows.map (fun row => samplePasskeys.signCount row.passkey) = [0] ∧
      successes (TicketServer.sampleTicket 1) t.2.2 = 1 ∧
      t.1.meets (.update 3 true 0) = true ∧
      ((t.1.step TicketServer.sampleTicket id (.update 3 true 0)).map fun s' =>
        s'.rows.map fun row => samplePasskeys.signCount row.passkey) = some [1]) (by decide +kernel)
  obtain ⟨s', step, after⟩ := Option.map_eq_some_iff.mp updated
  obtain ⟨counted, safe⟩ :=
    passkeys_hold samplePasskeys_lawful t TicketServer.sampleTicket_injective.injOn run
  obtain ⟨-, -, fewer, atMost⟩ := counted (TicketServer.sampleTicket 1)
  exact ⟨t, run, counter, ⟨s', step, after, (safe _ s' met step).2.2⟩, once,
    Nat.le_trans fewer atMost⟩

/-- A passkey is deleted before a login with it is finished, and the session is minted all the
same; of two logins at once, the one with the older counter writes last. -/
theorem passkeys_broken :
    (∃ t l s', sampleMachine.Reachable t ∧ t.1.step TicketServer.sampleTicket id l = some s' ∧
        ¬ t.1.MintsOwned l s') ∧
      ∃ t l s', sampleMachine.Reachable t ∧ t.1.step TicketServer.sampleTicket id l = some s' ∧
        ¬ t.1.CountersKept s' := by
  constructor
  · obtain ⟨t, run, gone, none_, minted⟩ := Machine.exists_reachableBy sampleMachine Machine.Always
      sampleServer_init
      (registering ++ [.arrive (.deleteCredential (.ok 1) 1), .delete 4 true, .finish 3 3,
        .select 3 true])
      (fun t => t.1.rows.isEmpty = true ∧ t.1.creds.sessions = [] ∧
        ((t.1.step TicketServer.sampleTicket id (.mint 3 true 0)).map (·.creds.sessions.length)) =
          some 1) (by decide +kernel)
    obtain ⟨s', step, one⟩ := Option.map_eq_some_iff.mp minted
    refine ⟨t, .mint 3 true 0, s', run, step, fun owned => ?_⟩
    obtain ⟨session, only⟩ := List.length_eq_one_iff.mp one
    have new : session ∉ t.1.creds.sessions := by
      rw [none_]
      exact List.not_mem_nil
    have listed : session ∈ s'.creds.sessions := by
      rw [only]
      exact List.mem_singleton_self session
    obtain ⟨-, -, -, -, -, -, -, -, -, row, there, -⟩ := owned session listed new
    rw [List.isEmpty_iff.mp gone] at there
    cases there
  · obtain ⟨t, run, before, back⟩ := Machine.exists_reachableBy sampleMachine Machine.Always
      sampleServer_init
      (registering ++ starting 4 9 2 (.loginStart "ann") ++
        [.arrive (.loginFinish (TicketServer.sampleTicket 2) (9, 65, 2)), .finish 3 3, .finish 5 3,
          .select 3 true, .select 5 true, .update 5 true 0])
      (fun t => t.1.rows.map (fun row => (row.credentialId, samplePasskeys.signCount row.passkey)) =
          [("A", 2)] ∧
        ((t.1.step TicketServer.sampleTicket id (.update 3 true 0)).map fun s' =>
          s'.rows.map fun row => (row.credentialId, samplePasskeys.signCount row.passkey)) =
            some [("A", 1)]) (by decide +kernel)
    obtain ⟨s', step, after⟩ := Option.map_eq_some_iff.mp back
    refine ⟨t, .update 3 true 0, s', run, step, fun kept => ?_⟩
    have two : ("A", 2) ∈ t.1.rows.map fun row =>
        (row.credentialId, samplePasskeys.signCount row.passkey) := by
      rw [before]
      exact List.mem_singleton_self _
    have one : ("A", 1) ∈ s'.rows.map fun row =>
        (row.credentialId, samplePasskeys.signCount row.passkey) := by
      rw [after]
      exact List.mem_singleton_self _
    obtain ⟨row, listed, was⟩ := List.mem_map.mp two
    obtain ⟨row', listed', is⟩ := List.mem_map.mp one
    obtain ⟨name, high⟩ := Prod.mk.inj was
    obtain ⟨name', low⟩ := Prod.mk.inj is
    have ahead := kept row listed row' listed' (name'.trans name.symm)
    rw [high, low] at ahead
    exact absurd ahead (by decide)

end PasskeyServer
end ReachMyDevice
