import ReachMyDevice.Passkeys

/-!
# What becomes of a ceremony

A ceremony is finished by one request at most, and in time. What its login then
reads, writes and mints is of a table that may have changed since.
-/
namespace ReachMyDevice
open Machines SingleUse

/-- The sign counter of a passkey that is stored. -/
def Webauthn.signCount (wa : Webauthn) (json : String) : Nat :=
  ((wa.fromJson json).map wa.counter).getD 0

/-- The ceremonies that were started and taken, those of registrations and those of logins. -/
abbrev PasskeyHistory (wa : Webauthn) :=
  List (Event String (Int × wa.Registration)) × List (Event String (Int × wa.Authentication))

namespace PasskeyRequest
variable {wa : Webauthn}

/-- The ceremony that a registration is to finish. -/
def registration : PasskeyRequest wa → Option String
  | .registerFinish _ state _ _ => some state
  | _ => none

def authentication : PasskeyRequest wa → Option String
  | .loginFinish state _ => some state
  | _ => none

theorem finished_admitted (request : PasskeyRequest wa) : request.admitted.finished = false := by
  unfold admitted
  split <;> first | rfl | (split <;> rfl)

end PasskeyRequest

namespace PasskeyStage
variable {wa : Webauthn}

/-- Nothing is to be written to the table, and no session to be minted. -/
def plain : PasskeyStage wa → Bool
  | .inserting .. | .verified .. | .updating .. | .minting .. => false
  | _ => true

theorem plain_admitted (request : PasskeyRequest wa) : request.admitted.plain = true := by
  unfold PasskeyRequest.admitted
  split <;> first | rfl | (split <;> rfl)

theorem asserted_of_plain {stage : PasskeyStage wa} (plain : stage.plain = true) :
    stage.asserted = none := by
  cases stage <;> first | rfl | cases plain

theorem finished_of_asserted {stage : PasskeyStage wa} {login : Int × AuthenticationResult}
    (asserted : stage.asserted = some login) : stage.finished = true := by
  cases stage <;> first | rfl | cases asserted

end PasskeyStage

/-- Requests of a kind that have finished a ceremony. -/
def PasskeyCall.finishes {wa : Webauthn} (kind : PasskeyRequest wa → Option String) (state : String)
    (c : PasskeyCall wa) : Bool :=
  decide (kind c.request = some state) && c.stage.finished

/-! ## Ceremonies are counted -/

section
variable {wa : Webauthn} {ν : Type} {kind : PasskeyRequest wa → Option String}
  {calls : List (PasskeyCall wa)} {history : List (Event String ν)} {i : Nat} {c : PasskeyCall wa}
  {stage : PasskeyStage wa}

/-- No more requests have finished a ceremony than have been given it. -/
def Counted (kind : PasskeyRequest wa → Option String) (calls : List (PasskeyCall wa))
    (history : List (Event String ν)) : Prop :=
  ∀ state, calls.countP (·.finishes kind state) ≤ successes state history

namespace Counted

theorem arrives (h : Counted kind calls history) (request : PasskeyRequest wa) :
    Counted kind (calls ++ [⟨request, request.admitted⟩]) history := by
  intro state
  rw [Slots.countP_concat, PasskeyCall.finishes, request.finished_admitted, Bool.and_false]
  exact h state

theorem goes (h : Counted kind calls history) (found : calls[i]? = some c)
    (still : stage.finished = true → c.stage.finished = true ∨ kind c.request = none) :
    Counted kind (calls.set i { c with stage }) history := by
  intro state
  have replaced := Slots.countP_set (b := { c with stage }) found (·.finishes kind state)
  have fewer : (PasskeyCall.finishes kind state { c with stage }).toNat ≤
      (c.finishes kind state).toNat := by
    apply Bool.toNat_le_toNat
    intro now
    obtain ⟨own, finished⟩ := Bool.and_eq_true_iff.mp now
    rcases still finished with before | other
    · exact Bool.and_eq_true_iff.mpr ⟨own, before⟩
    · cases other.symm.trans (of_decide_eq_true own)
  have before := h state
  omega

theorem put (h : Counted kind calls history) (state : String) (v : ν) (expires : Nat) :
    Counted kind calls (history ++ [.put state v expires]) := by
  intro other
  rw [successes_concat, Event.succeeds, Bool.and_false]
  exact h other

theorem take (h : Counted kind calls history) (found : calls[i]? = some c) {state : String}
    (own : kind c.request = some state) {now : Nat} {got : Option ν}
    (gave : stage.finished = true → got.isSome = true) :
    Counted kind (calls.set i { c with stage }) (history ++ [.take state now got]) := by
  intro other
  have replaced := Slots.countP_set (b := { c with stage }) found (·.finishes kind other)
  have before := h other
  rw [successes_concat]
  have more : (PasskeyCall.finishes kind other { c with stage }).toNat ≤
      (decide ((Event.take state now got : Event String ν).key = other) &&
        (Event.take state now got : Event String ν).succeeds).toNat := by
    apply Bool.toNat_le_toNat
    intro finishes
    obtain ⟨same, finished⟩ := Bool.and_eq_true_iff.mp finishes
    have key : state = other := Option.some.inj (own.symm.trans (of_decide_eq_true same))
    obtain ⟨v, given⟩ := Option.isSome_iff_exists.mp (gave finished)
    rw [given]
    exact Bool.and_eq_true_iff.mpr ⟨decide_eq_true key, rfl⟩
  omega

end Counted

/-- Each ceremony was to last as long as any. -/
def Timed (clock : Nat) (history : List (Event String ν)) : Prop :=
  ∀ state v expires, .put state v expires ∈ history → ∃ started ≤ clock, expires = started + chTtl

/-- A ceremony that was started not so long ago, and not taken since. -/
def InProgress (history : List (Event String ν)) (now : Nat) (state : String) : Prop :=
  ∃ v started, lastOf state history = some (.put state v (started + chTtl)) ∧ started ≤ now ∧
    now < started + chTtl

namespace Timed
variable {clock now : Nat}

theorem later (h : Timed clock history) (le : clock ≤ now) : Timed now history := by
  intro state v expires member
  obtain ⟨started, before, lasts⟩ := h state v expires member
  exact ⟨started, Nat.le_trans before le, lasts⟩

theorem put (h : Timed clock history) (state : String) (v : ν) :
    Timed clock (history ++ [.put state v (clock + chTtl)]) := by
  intro state' v' expires member
  rcases List.mem_append.mp member with before | last
  · exact h state' v' expires before
  · cases List.mem_singleton.mp last
    exact ⟨clock, Nat.le_refl _, rfl⟩

theorem take (h : Timed clock history) (state : String) (now : Nat) (got : Option ν) :
    Timed clock (history ++ [.take state now got]) := by
  intro state' v' expires member
  rcases List.mem_append.mp member with before | last
  · exact h state' v' expires before
  · cases List.mem_singleton.mp last

theorem inProgress (h : Timed clock history) (le : clock ≤ now) {state : String} {v : ν}
    (open_ : Open history now state v) : InProgress history now state := by
  obtain ⟨expires, last, fresh⟩ := open_
  have member : .put state v expires ∈ history :=
    List.mem_of_mem_filter (List.mem_of_getLast? last)
  obtain ⟨started, before, rfl⟩ := h state v expires member
  exact ⟨v, started, last, Nat.le_trans before le, fresh⟩

end Timed
end

/-! ## What a step does -/

namespace PasskeyServer
variable {wa : Webauthn} (generateToken : Nat → String) (hashToken : String → String)
  (s : PasskeyServer wa)

def regTold : PasskeyLabel wa → List (Event String (Int × wa.Registration))
  | .start i random now =>
    match s.calls[i]? with
    | some ⟨.registerStart _, .loaded userId username passkeys⟩ =>
      (wa.startRegistration (userId % 2 ^ 64).toNat username (excluded passkeys) random).toList.map
        fun reg => .put (s.nextToken generateToken) (userId, reg) (now + chTtl)
    | _ => []
  | .finish i now =>
    match s.calls[i]? with
    | some ⟨.registerFinish _ state _ _, .authed _⟩ => [.take state now (s.reg.got now state)]
    | _ => []
  | _ => []

def authTold : PasskeyLabel wa → List (Event String (Int × wa.Authentication))
  | .start i random now =>
    match s.calls[i]? with
    | some ⟨.loginStart _, .loaded userId _ passkeys⟩ =>
      (wa.startAuthentication passkeys random).toList.map
        fun auth => .put (s.nextToken generateToken) (userId, auth) (now + chTtl)
    | _ => []
  | .finish i now =>
    match s.calls[i]? with
    | some ⟨.loginFinish state _, .arrived⟩ => [.take state now (s.auth.got now state)]
    | _ => []
  | _ => []

def recorded (wa : Webauthn) (generateToken : Nat → String) (hashToken : String → String) :
    Machine (PasskeyServer wa × PasskeyHistory wa) (PasskeyLabel wa) :=
  (machine wa generateToken hashToken).recording (fun _ => ([], []))
    fun s l _ history =>
      (history.1 ++ s.regTold generateToken l, history.2 ++ s.authTold generateToken l)

/-- What a step tells of ceremonies. -/
abbrev Tells (l : PasskeyLabel wa) (reg : List (Event String (Int × wa.Registration)))
    (auth : List (Event String (Int × wa.Authentication))) : Prop :=
  s.regTold generateToken l = reg ∧ s.authTold generateToken l = auth

inductive Does (l : PasskeyLabel wa) (s' : PasskeyServer wa) : Prop
  | arrives (request : PasskeyRequest wa) (told : s.Tells generateToken l [] [])
      (same : s' = { s with calls := s.calls ++ [⟨request, request.admitted⟩] })
  /-- A call goes on, and only it. -/
  | goes (i : Nat) (c : PasskeyCall wa) (stage : PasskeyStage wa) (found : s.calls[i]? = some c)
      (told : s.Tells generateToken l [] []) (plain : stage.plain = true)
      (still : stage.finished = true → c.stage.finished = true)
      (calls : s'.calls = s.calls.set i { c with stage }) (rows : s'.rows = s.rows)
      (reg : s'.reg = s.reg) (auth : s'.auth = s.auth) (clock : s.clock ≤ s'.clock)
      (generated : s.creds.tokens.generated ≤ s'.creds.tokens.generated)
      (sessions : s'.creds.sessions = s.creds.sessions)
  | putsReg (i : Nat) (c : PasskeyCall wa) (owner : Int) (reg : wa.Registration) (now : Nat)
      (found : s.calls[i]? = some c) (le : s.clock ≤ now)
      (told : s.Tells generateToken l
        [.put (s.nextToken generateToken) (owner, reg) (now + chTtl)] [])
      (same : s' = s.putReg generateToken i c owner reg now)
  | putsAuth (i : Nat) (c : PasskeyCall wa) (owner : Int) (auth : wa.Authentication) (now : Nat)
      (found : s.calls[i]? = some c) (le : s.clock ≤ now)
      (told : s.Tells generateToken l []
        [.put (s.nextToken generateToken) (owner, auth) (now + chTtl)])
      (same : s' = s.putAuth generateToken i c owner auth now)
  | takesReg (i : Nat) (c : PasskeyCall wa) (userId : Int) (state : String)
      (credential : wa.Attestation) (now : Nat) (label : l = .finish i now)
      (found : s.calls[i]? = some c) (own : c.request.registration = some state)
      (other : c.request.authentication = none) (le : s.clock ≤ now)
      (told : s.Tells generateToken l [.take state now (s.reg.got now state)] [])
      (same : s' = { s.setStage i c (attested userId credential (s.reg.got now state)) with
        reg := s.reg.take state
        clock := now })
  | takesAuth (i : Nat) (c : PasskeyCall wa) (state : String) (credential : wa.Assertion)
      (now : Nat) (label : l = .finish i now) (found : s.calls[i]? = some c)
      (request : c.request = .loginFinish state credential) (le : s.clock ≤ now)
      (told : s.Tells generateToken l [] [.take state now (s.auth.got now state)])
      (same : s' = { s.setStage i c (asserted credential (s.auth.got now state)) with
        auth := s.auth.take state
        clock := now })
  | inserts (i : Nat) (c : PasskeyCall wa) (userId : Int) (credentialId json : String)
      (now : Int64) (found : s.calls[i]? = some c) (told : s.Tells generateToken l [] [])
      (stage : c.stage = .inserting userId credentialId json)
      (admits : s.admits userId credentialId = true)
      (same : s' = { s.setStage i c (.returned (.ok .registered)) with
        rows := s.rows ++ [s.newRow c userId credentialId json now] })
  | selects (i : Nat) (c : PasskeyCall wa) (userId : Int) (result : AuthenticationResult)
      (row : CredentialRow) (pk : wa.Passkey) (json : String) (found : s.calls[i]? = some c)
      (told : s.Tells generateToken l [] []) (stage : c.stage = .verified userId result)
      (listed : row ∈ s.rows) (isOf : row.isOf userId (wa.credIdB64 result.credId) = true)
      (stored : wa.fromJson row.passkey = some pk)
      (next : wa.toJson (wa.updateCredential pk result) = some json)
      (same : s' = s.setStage i c (.updating userId result row.passkey json))
  /-- The passkey that is stored stays. -/
  | passes (i : Nat) (c : PasskeyCall wa) (userId : Int) (result : AuthenticationResult)
      (used : CredentialRow → Option Int64) (found : s.calls[i]? = some c)
      (told : s.Tells generateToken l [] [])
      (stage : c.stage.asserted = some (userId, result))
      (same : s' = { s.setStage i c (.minting userId result) with
        rows := s.rows.map fun row => { row with lastUsedAt := used row } })
  | updates (i : Nat) (c : PasskeyCall wa) (userId : Int) (result : AuthenticationResult)
      (old json : String) (now : Int64) (label : l = .update i true now)
      (found : s.calls[i]? = some c) (told : s.Tells generateToken l [] [])
      (stage : c.stage = .updating userId result old json)
      (same : s' = { s.setStage i c (.minting userId result) with
        rows := s.updateRow userId (wa.credIdB64 result.credId) fun row =>
          { row with passkey := json, lastUsedAt := some now } })
  | mints (i : Nat) (c : PasskeyCall wa) (userId : Int) (result : AuthenticationResult)
      (ok : Bool) (now : Int64) (label : l = .mint i ok now) (found : s.calls[i]? = some c)
      (told : s.Tells generateToken l [] []) (stage : c.stage = .minting userId result)
      (same : s' = { s.setStage i c (.naming userId (s.nextToken generateToken)) with
        creds := { s.creds.draw with sessions := s.creds.sessions ++
          [s.creds.sessionRow generateToken hashToken userId now] } })
  | deletes (i : Nat) (c : PasskeyCall wa) (user : Except AppError Int) (id : Nat) (userId : Int)
      (stage : PasskeyStage wa) (label : l = .delete i true) (found : s.calls[i]? = some c)
      (told : s.Tells generateToken l [] []) (request : c.request = .deleteCredential user id)
      (was : c.stage = .authed userId) (plain : stage.plain = true)
      (still : stage.finished = false)
      (same : s' = { s.setStage i c stage with rows := s.rows.filter (!·.hit id userId) })

variable {generateToken hashToken s} {s' : PasskeyServer wa} {l : PasskeyLabel wa} {i : Nat}
  {c : PasskeyCall wa} {stage : PasskeyStage wa}

theorem Does.sets (found : s.calls[i]? = some c) (told : s.Tells generateToken l [] [])
    (plain : stage.plain = true) (still : stage.finished = true → c.stage.finished = true) :
    s.Does generateToken hashToken l (s.setStage i c stage) :=
  .goes i c stage found told plain still rfl rfl rfl rfl (Nat.le_refl _) (Nat.le_refl _) rfl

theorem lookUp_plain {ok : Bool} (looked : s.lookUp c ok = some stage) :
    stage.plain = true ∧ stage.finished = false := by
  unfold lookUp at looked
  split at looked
  · split at looked
    · split at looked <;> cases looked <;> exact ⟨rfl, rfl⟩
    · cases looked
      exact ⟨rfl, rfl⟩
  · split at looked
    · split at looked <;> cases looked <;> exact ⟨rfl, rfl⟩
    · cases looked
      exact ⟨rfl, rfl⟩
  · cases looked

theorem load_plain {ok : Bool} (loaded : s.load c ok = some stage) :
    stage.plain = true ∧ stage.finished = false := by
  unfold load at loaded
  split at loaded
  · split at loaded
    · split at loaded <;> cases loaded <;> exact ⟨rfl, rfl⟩
    · cases loaded
      exact ⟨rfl, rfl⟩
  · cases loaded

theorem name_plain {ok : Bool} (named : s.name c ok = some stage) :
    stage.plain = true ∧ (stage.finished = true → c.stage.finished = true) := by
  unfold name at named
  split at named
  · rename_i userId session naming
    rw [naming]
    split at named
    · split at named <;> cases named <;> exact ⟨rfl, fun _ => rfl⟩
    · cases named
      exact ⟨rfl, fun _ => rfl⟩
  · cases named

theorem Does.of_start {random now : Nat} (found : s.calls[i]? = some c) (le : s.clock ≤ now)
    (started : s.start generateToken i c random now = some s') :
    s.Does generateToken hashToken (.start i random now) s' := by
  obtain ⟨request, was⟩ := c
  unfold start at started
  split at started
  · rename_i user userId username passkeys request_ was_
    obtain rfl : request = _ := request_
    obtain rfl : was = _ := was_
    split at started
    · rename_i reg made
      refine .putsReg i _ userId reg now found le ⟨?_, ?_⟩ (Option.some.inj started).symm
      · rw [regTold, found]
        simp only [made, Option.toList_some, List.map_singleton]
      · rw [authTold, found]
    · rename_i made
      rw [← Option.some.inj started]
      refine .goes i _ .waErr found ⟨?_, ?_⟩ rfl (by rintro ⟨⟩) rfl rfl rfl rfl le
        (Nat.le_refl _) rfl
      · rw [regTold, found]
        simp only [made, Option.toList_none, List.map_nil]
      · rw [authTold, found]
  · rename_i username userId _ passkeys request_ was_
    obtain rfl : request = _ := request_
    obtain rfl : was = _ := was_
    split at started
    · rename_i auth made
      refine .putsAuth i _ userId auth now found le ⟨?_, ?_⟩ (Option.some.inj started).symm
      · rw [regTold, found]
      · rw [authTold, found]
        simp only [made, Option.toList_some, List.map_singleton]
    · rename_i made
      rw [← Option.some.inj started]
      refine .goes i _ .waErr found ⟨?_, ?_⟩ rfl (by rintro ⟨⟩) rfl rfl rfl rfl le
        (Nat.le_refl _) rfl
      · rw [regTold, found]
      · rw [authTold, found]
        simp only [made, Option.toList_none, List.map_nil]
  · cases started

theorem Does.of_finish {now : Nat} (found : s.calls[i]? = some c) (le : s.clock ≤ now)
    (finished : s.finish i c now = some s') :
    s.Does generateToken hashToken (.finish i now) s' := by
  obtain ⟨request, was⟩ := c
  unfold finish at finished
  split at finished
  · rename_i user state text credential userId request_ was_
    obtain rfl : request = _ := request_
    obtain rfl : was = _ := was_
    refine .takesReg i _ userId state credential now rfl found rfl rfl le ⟨?_, ?_⟩
      (Option.some.inj finished).symm
    · rw [regTold, found]
    · rw [authTold, found]
  · rename_i state credential request_ was_
    obtain rfl : request = _ := request_
    obtain rfl : was = _ := was_
    refine .takesAuth i _ state credential now rfl found rfl le ⟨?_, ?_⟩
      (Option.some.inj finished).symm
    · rw [regTold, found]
    · rw [authTold, found]
  · cases finished

theorem Does.of_insert {ok : Bool} {now : Int64} (found : s.calls[i]? = some c)
    (inserted : s.insert i c ok now = some s') :
    s.Does generateToken hashToken (.insert i ok now) s' := by
  unfold insert at inserted
  split at inserted
  · rename_i userId credentialId json was
    split at inserted
    · rename_i admitted
      exact .inserts i c userId credentialId json now found ⟨rfl, rfl⟩ was admitted.2
        (Option.some.inj inserted).symm
    · rw [← Option.some.inj inserted]
      exact .sets found ⟨rfl, rfl⟩ rfl (by rintro ⟨⟩)
  · cases inserted

theorem Does.of_passes {userId : Int} {result : AuthenticationResult}
    (found : s.calls[i]? = some c) (told : s.Tells generateToken l [] [])
    (was : c.stage.asserted = some (userId, result)) :
    s.Does generateToken hashToken l (s.setStage i c (.minting userId result)) := by
  refine .passes i c userId result (·.lastUsedAt) found told was ?_
  rw [List.map_id']
  rfl

theorem Does.of_select {ok : Bool} (found : s.calls[i]? = some c)
    (selected : s.select c ok = some stage) :
    s.Does generateToken hashToken (.select i ok) (s.setStage i c stage) := by
  unfold select at selected
  split at selected
  · rename_i userId result was
    have asserted : c.stage.asserted = some (userId, result) := by rw [was]; rfl
    split at selected
    · split at selected
      · split at selected
        · cases selected
          exact .of_passes found ⟨rfl, rfl⟩ asserted
        · rename_i row first
          split at selected
          · cases selected
            exact .of_passes found ⟨rfl, rfl⟩ asserted
          · rename_i json next
            cases selected
            obtain ⟨pk, stored, next⟩ := Option.bind_eq_some_iff.mp next
            exact .selects i c userId result row pk json found ⟨rfl, rfl⟩ was
              (List.mem_of_find?_eq_some first)
              (List.find?_some (p := CredentialRow.isOf _ _) first) stored next rfl
      · cases selected
        exact .sets found ⟨rfl, rfl⟩ rfl (by rintro ⟨⟩)
    · cases selected
  · cases selected

theorem Does.of_update {ok : Bool} {now : Int64} (found : s.calls[i]? = some c)
    (updated : s.update i c ok now = some s') :
    s.Does generateToken hashToken (.update i ok now) s' := by
  unfold update at updated
  split at updated
  · rename_i userId result old json was
    rw [← Option.some.inj updated]
    cases ok with
    | true => exact .updates i c userId result old json now rfl found ⟨rfl, rfl⟩ was rfl
    | false => exact .of_passes found ⟨rfl, rfl⟩ (by rw [was]; rfl)
  · rename_i userId result was
    have asserted : c.stage.asserted = some (userId, result) := by rw [was]; rfl
    split at updated
    · cases updated
    · rw [← Option.some.inj updated]
      cases ok with
      | true =>
          refine .passes i c userId result (fun row =>
            if row.isOf userId (wa.credIdB64 result.credId) then some now else row.lastUsedAt)
            found ⟨rfl, rfl⟩ asserted ?_
          have touched : (s.updateRow userId (wa.credIdB64 result.credId) fun row =>
              { row with lastUsedAt := some now }) = s.rows.map fun row => { row with
                lastUsedAt := if row.isOf userId (wa.credIdB64 result.credId) then some now
                  else row.lastUsedAt } := by
            apply List.map_congr_left
            intro row _
            split <;> rfl
          rw [if_pos rfl, touched]
      | false => exact .of_passes found ⟨rfl, rfl⟩ asserted
  · cases updated

theorem Does.of_mint {ok : Bool} {now : Int64} (found : s.calls[i]? = some c)
    (minted : s.mint generateToken hashToken i c ok now = some s') :
    s.Does generateToken hashToken (.mint i ok now) s' := by
  unfold mint CredentialServer.mintUserSession at minted
  split at minted
  · rename_i userId result was
    rw [← Option.some.inj minted]
    dsimp only
    split
    · exact .mints i c userId result ok now rfl found ⟨rfl, rfl⟩ was rfl
    · exact .goes i c (.fail .db) found ⟨rfl, rfl⟩ rfl (by rintro ⟨⟩) rfl rfl rfl rfl
        (Nat.le_refl _) (Nat.le_succ _) rfl
  · cases minted

theorem Does.of_delete {ok : Bool} (found : s.calls[i]? = some c)
    (deleted : s.delete i c ok = some s') :
    s.Does generateToken hashToken (.delete i ok) s' := by
  unfold delete at deleted
  split at deleted
  · rename_i user id userId request was
    split at deleted
    · rename_i answered
      subst answered
      refine .deletes i c user id userId _ rfl found ⟨rfl, rfl⟩ request was ?_ ?_
        (Option.some.inj deleted).symm
      · split <;> rfl
      · split <;> rfl
    · rw [← Option.some.inj deleted]
      exact .sets found ⟨rfl, rfl⟩ rfl (by rintro ⟨⟩)
  · cases deleted

theorem step_does (step : s.step generateToken hashToken l = some s') :
    s.Does generateToken hashToken l s' := by
  cases l with
  | arrive request => exact .arrives request ⟨rfl, rfl⟩ (Option.some.inj step).symm
  | lookUp i ok =>
      obtain ⟨c, found, step⟩ := Option.bind_eq_some_iff.mp step
      obtain ⟨stage, looked, rfl⟩ := Option.map_eq_some_iff.mp step
      obtain ⟨plain, open_⟩ := lookUp_plain looked
      exact .sets found ⟨rfl, rfl⟩ plain fun still => by cases open_.symm.trans still
  | load i ok =>
      obtain ⟨c, found, step⟩ := Option.bind_eq_some_iff.mp step
      obtain ⟨stage, loaded, rfl⟩ := Option.map_eq_some_iff.mp step
      obtain ⟨plain, open_⟩ := load_plain loaded
      exact .sets found ⟨rfl, rfl⟩ plain fun still => by cases open_.symm.trans still
  | start i random now =>
      obtain ⟨c, found, step⟩ := Option.bind_eq_some_iff.mp step
      obtain ⟨le, started⟩ := Option.ite_none_right_eq_some.mp step
      exact .of_start found le started
  | finish i now =>
      obtain ⟨c, found, step⟩ := Option.bind_eq_some_iff.mp step
      obtain ⟨le, finished⟩ := Option.ite_none_right_eq_some.mp step
      exact .of_finish found le finished
  | insert i ok now =>
      obtain ⟨c, found, step⟩ := Option.bind_eq_some_iff.mp step
      exact .of_insert found step
  | select i ok =>
      obtain ⟨c, found, step⟩ := Option.bind_eq_some_iff.mp step
      obtain ⟨stage, selected, rfl⟩ := Option.map_eq_some_iff.mp step
      exact .of_select found selected
  | update i ok now =>
      obtain ⟨c, found, step⟩ := Option.bind_eq_some_iff.mp step
      exact .of_update found step
  | mint i ok now =>
      obtain ⟨c, found, step⟩ := Option.bind_eq_some_iff.mp step
      exact .of_mint found step
  | name i ok =>
      obtain ⟨c, found, step⟩ := Option.bind_eq_some_iff.mp step
      obtain ⟨stage, named, rfl⟩ := Option.map_eq_some_iff.mp step
      obtain ⟨plain, still⟩ := name_plain named
      exact .sets found ⟨rfl, rfl⟩ plain still
  | delete i ok =>
      obtain ⟨c, found, step⟩ := Option.bind_eq_some_iff.mp step
      exact .of_delete found step
  | abort i =>
      obtain ⟨c, found, step⟩ := Option.bind_eq_some_iff.mp step
      obtain ⟨-, step⟩ := Option.ite_none_left_eq_some.mp step
      rw [← Option.some.inj step]
      exact .sets found ⟨rfl, rfl⟩ rfl (by rintro ⟨⟩)

/-! ## Runs -/

/-- What is told of the ceremonies is so. -/
structure Kept (generateToken : Nat → String) (t : PasskeyServer wa × PasskeyHistory wa) :
    Prop where
  reg : Booked generateToken t.1.reg t.1.clock t.1.creds.tokens.generated t.2.1
  auth : Booked generateToken t.1.auth t.1.clock t.1.creds.tokens.generated t.2.2
  regTimed : Timed t.1.clock t.2.1
  authTimed : Timed t.1.clock t.2.2
  registered : Counted PasskeyRequest.registration t.1.calls t.2.1
  signedIn : Counted PasskeyRequest.authentication t.1.calls t.2.2

theorem isSome_of_attested {userId : Int} {credential : wa.Attestation}
    {taken : Option (Int × wa.Registration)}
    (finished : (attested userId credential taken).finished = true) : taken.isSome = true := by
  cases taken with
  | none => cases finished
  | some ceremony => rfl

theorem isSome_of_asserted {credential : wa.Assertion}
    {taken : Option (Int × wa.Authentication)}
    (finished : (asserted credential taken).finished = true) : taken.isSome = true := by
  cases taken with
  | none => cases finished
  | some ceremony => rfl

/-- Nothing is told, and a call goes on. -/
theorem Kept.goes {t t' : PasskeyServer wa × PasskeyHistory wa} (h : Kept generateToken t)
    (history : t'.2 = t.2) (found : t.1.calls[i]? = some c)
    (still : stage.finished = true → c.stage.finished = true)
    (calls : t'.1.calls = t.1.calls.set i { c with stage }) (reg : t'.1.reg = t.1.reg)
    (auth : t'.1.auth = t.1.auth) (clock : t.1.clock ≤ t'.1.clock)
    (generated : t.1.creds.tokens.generated ≤ t'.1.creds.tokens.generated) :
    Kept generateToken t' := by
  constructor
  · rw [history, reg]
    exact h.reg.later clock generated
  · rw [history, auth]
    exact h.auth.later clock generated
  · rw [history]
    exact h.regTimed.later clock
  · rw [history]
    exact h.authTimed.later clock
  · rw [history, calls]
    exact h.registered.goes found fun finished => .inl (still finished)
  · rw [history, calls]
    exact h.signedIn.goes found fun finished => .inl (still finished)

theorem Kept.step {t t' : PasskeyServer wa × PasskeyHistory wa} (h : Kept generateToken t)
    (fresh : Set.InjOn generateToken (Set.Iio t'.1.creds.tokens.generated))
    (step : (recorded wa generateToken hashToken).step t l = some t') : Kept generateToken t' := by
  obtain ⟨taken, noted⟩ := Machine.recording_step_iff.mp step
  obtain ⟨s', history⟩ := t'
  obtain rfl : history = _ := noted
  have quiet : t.1.Tells generateToken l [] [] →
      (t.2.1 ++ t.1.regTold generateToken l, t.2.2 ++ t.1.authTold generateToken l) = t.2 := by
    rintro ⟨reg, auth⟩
    rw [reg, auth, List.append_nil, List.append_nil]
  cases step_does taken with
  | arrives request told same =>
      subst same
      rw [quiet told]
      exact ⟨h.reg, h.auth, h.regTimed, h.authTimed, h.registered.arrives request,
        h.signedIn.arrives request⟩
  | goes i c stage found told plain still calls rows reg auth clock generated sessions =>
      exact h.goes (quiet told) found still calls reg auth clock generated
  | putsReg i c owner reg now found le told same =>
      subst same
      rw [told.1, told.2, List.append_nil]
      exact ⟨h.reg.put fresh le (owner, reg) _, h.auth.later le (Nat.le_succ _),
        (h.regTimed.later le).put _ _, h.authTimed.later le,
        (h.registered.goes found (by rintro ⟨⟩)).put _ _ _, h.signedIn.goes found (by rintro ⟨⟩)⟩
  | putsAuth i c owner auth now found le told same =>
      subst same
      rw [told.1, told.2, List.append_nil]
      exact ⟨h.reg.later le (Nat.le_succ _), h.auth.put fresh le (owner, auth) _,
        h.regTimed.later le, (h.authTimed.later le).put _ _, h.registered.goes found (by rintro ⟨⟩),
        (h.signedIn.goes found (by rintro ⟨⟩)).put _ _ _⟩
  | takesReg i c userId state credential now label found own other le told same =>
      subst same
      rw [told.1, told.2, List.append_nil]
      exact ⟨h.reg.take le state, h.auth.later le (Nat.le_refl _),
        (h.regTimed.later le).take _ _ _, h.authTimed.later le,
        h.registered.take found own isSome_of_attested, h.signedIn.goes found fun _ => .inr other⟩
  | takesAuth i c state credential now label found request le told same =>
      subst same
      rw [told.1, told.2, List.append_nil]
      exact ⟨h.reg.later le (Nat.le_refl _), h.auth.take le state, h.regTimed.later le,
        (h.authTimed.later le).take _ _ _,
        h.registered.goes found fun _ => .inr (by rw [request]; rfl),
        h.signedIn.take found (by rw [request]; rfl) isSome_of_asserted⟩
  | inserts i c userId credentialId json now found told stage admits same =>
      subst same
      exact h.goes (quiet told) found (fun _ => by rw [stage]; rfl) rfl rfl rfl (Nat.le_refl _)
        (Nat.le_refl _)
  | selects i c userId result row pk json found told stage listed isOf stored next same =>
      subst same
      exact h.goes (quiet told) found (fun _ => by rw [stage]; rfl) rfl rfl rfl (Nat.le_refl _)
        (Nat.le_refl _)
  | passes i c userId result used found told stage same =>
      subst same
      exact h.goes (quiet told) found (fun _ => PasskeyStage.finished_of_asserted stage) rfl rfl rfl
        (Nat.le_refl _) (Nat.le_refl _)
  | updates i c userId result old json now label found told stage same =>
      subst same
      exact h.goes (quiet told) found (fun _ => by rw [stage]; rfl) rfl rfl rfl (Nat.le_refl _)
        (Nat.le_refl _)
  | mints i c userId result ok now label found told stage same =>
      subst same
      exact h.goes (quiet told) found (fun _ => by rw [stage]; rfl) rfl rfl rfl (Nat.le_refl _)
        (Nat.le_succ _)
  | deletes i c user id userId stage label found told request was plain still same =>
      subst same
      exact h.goes (quiet told) found (fun finished => by cases still.symm.trans finished) rfl rfl
        rfl (Nat.le_refl _) (Nat.le_refl _)

/-- A request that has finished a ceremony had done so, or does so while the ceremony is in
progress. -/
def InTime (t : PasskeyServer wa × PasskeyHistory wa) (l : PasskeyLabel wa)
    (s' : PasskeyServer wa) : Prop :=
  ∀ i c', s'.calls[i]? = some c' → c'.stage.finished = true →
    (∃ c, t.1.calls[i]? = some c ∧ c.stage.finished = true) ∨
      ∃ now, l = .finish i now ∧
        ((∃ state, c'.request.registration = some state ∧ InProgress t.2.1 now state) ∨
          ∃ state, c'.request.authentication = some state ∧ InProgress t.2.2 now state)

theorem InTime.goes {t : PasskeyServer wa × PasskeyHistory wa} (found : t.1.calls[i]? = some c)
    (calls : s'.calls = t.1.calls.set i { c with stage })
    (still : stage.finished = true → c.stage.finished = true) : InTime t l s' := by
  intro j c' there finished
  rw [calls] at there
  rcases Slots.getElem?_set_cases there with ⟨rfl, rfl⟩ | ⟨-, before⟩
  · exact .inl ⟨c, found, still finished⟩
  · exact .inl ⟨c', before, finished⟩

/-- The one call that finishes a ceremony is given it in time. -/
theorem InTime.takes {t : PasskeyServer wa × PasskeyHistory wa} {now : Nat}
    (label : l = .finish i now) (calls : s'.calls = t.1.calls.set i { c with stage })
    (given : stage.finished = true →
      (∃ state, c.request.registration = some state ∧ InProgress t.2.1 now state) ∨
        ∃ state, c.request.authentication = some state ∧ InProgress t.2.2 now state) :
    InTime t l s' := by
  intro j c' there finished
  rw [calls] at there
  rcases Slots.getElem?_set_cases there with ⟨rfl, rfl⟩ | ⟨-, before⟩
  · exact .inr ⟨now, label, given finished⟩
  · exact .inl ⟨c', before, finished⟩

theorem Kept.inTime {t : PasskeyServer wa × PasskeyHistory wa} (h : Kept generateToken t)
    (step : t.1.step generateToken hashToken l = some s') : InTime t l s' := by
  cases step_does step with
  | arrives request told same =>
      subst same
      intro j c' there finished
      rcases Slots.getElem?_concat_cases there with before | ⟨-, rfl⟩
      · exact .inl ⟨c', before, finished⟩
      · cases request.finished_admitted.symm.trans finished
  | goes i c stage found told plain still calls rows reg auth clock generated sessions =>
      exact .goes found calls still
  | putsReg i c owner reg now found le told same =>
      exact .goes found (congrArg PasskeyServer.calls same) (by rintro ⟨⟩)
  | putsAuth i c owner auth now found le told same =>
      exact .goes found (congrArg PasskeyServer.calls same) (by rintro ⟨⟩)
  | takesReg i c userId state credential now label found own other le told same =>
      refine .takes label (congrArg PasskeyServer.calls same) fun finished => .inl ⟨state, own, ?_⟩
      obtain ⟨v, got⟩ := Option.isSome_iff_exists.mp (isSome_of_attested finished)
      exact h.regTimed.inProgress le ((h.reg.accounted.got_iff le state v).mp got)
  | takesAuth i c state credential now label found request le told same =>
      refine .takes label (congrArg PasskeyServer.calls same)
        fun finished => .inr ⟨state, by rw [request]; rfl, ?_⟩
      obtain ⟨v, got⟩ := Option.isSome_iff_exists.mp (isSome_of_asserted finished)
      exact h.authTimed.inProgress le ((h.auth.accounted.got_iff le state v).mp got)
  | inserts i c userId credentialId json now found told stage admits same =>
      exact .goes found (congrArg PasskeyServer.calls same) fun _ => by rw [stage]; rfl
  | selects i c userId result row pk json found told stage listed isOf stored next same =>
      exact .goes found (congrArg PasskeyServer.calls same) fun _ => by rw [stage]; rfl
  | passes i c userId result used found told stage same =>
      exact .goes found (congrArg PasskeyServer.calls same)
        fun _ => PasskeyStage.finished_of_asserted stage
  | updates i c userId result old json now label found told stage same =>
      exact .goes found (congrArg PasskeyServer.calls same) fun _ => by rw [stage]; rfl
  | mints i c userId result ok now label found told stage same =>
      exact .goes found (congrArg PasskeyServer.calls same) fun _ => by rw [stage]; rfl
  | deletes i c user id userId stage label found told request was plain still same =>
      exact .goes found (congrArg PasskeyServer.calls same)
        fun finished => by cases still.symm.trans finished

theorem generated_le (step : s.step generateToken hashToken l = some s') :
    s.creds.tokens.generated ≤ s'.creds.tokens.generated := by
  cases step_does step with
  | goes i c stage found told plain still calls rows reg auth clock generated sessions =>
      exact generated
  | putsReg i c owner reg now found le told same =>
      subst same
      exact Nat.le_succ _
  | putsAuth i c owner auth now found le told same =>
      subst same
      exact Nat.le_succ _
  | mints i c userId result ok now label found told stage same =>
      subst same
      exact Nat.le_succ _
  | _ =>
      rename s' = _ => same
      subst same
      exact Nat.le_refl _

theorem kept_of_reachable {ok : PasskeyServer wa × PasskeyHistory wa → PasskeyLabel wa → Prop}
    {t : PasskeyServer wa × PasskeyHistory wa}
    (run : (recorded wa generateToken hashToken).ReachableBy ok t) :
    Set.InjOn generateToken (Set.Iio t.1.creds.tokens.generated) → Kept generateToken t := by
  refine run.invariant (I := fun t =>
    Set.InjOn generateToken (Set.Iio t.1.creds.tokens.generated) → Kept generateToken t) ?_ ?_
  · rintro ⟨s, history⟩ ⟨⟨users, clock, rfl⟩, noted⟩ -
    obtain rfl : history = ([], []) := noted
    refine ⟨booked_nil, booked_nil, ?_, ?_, ?_, ?_⟩
    · intro state v expires member
      cases member
    · intro state v expires member
      cases member
    · exact fun _ => Nat.le_refl 0
    · exact fun _ => Nat.le_refl 0
  · intro t l t' h _ step fresh
    have le := generated_le (Machine.recording_step_iff.mp step).1
    exact (h (fresh.mono (Set.Iio_subset_Iio le))).step fresh step

end PasskeyServer
end ReachMyDevice
