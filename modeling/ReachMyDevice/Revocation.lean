import ReachMyDevice.WsHandshake

/-!
# What a revocation reaches

A token that goes from its table is looked up in vain from then on. What was
looked up before stands: the requests that have found a credential, the tickets
they are given, and the sockets.
-/
namespace ReachMyDevice
open Machines SingleUse

namespace CredentialServer
variable (hashToken : String → String) (s : CredentialServer)

/-- A token is in one of the tables. -/
def Stored (token : String) : Prop :=
  (∃ r ∈ s.sessions, r.tokenHash = hashToken token) ∨
    ∃ t ∈ s.db.tokens, t.tokenHash = hashToken token

variable {crypto : Crypto} {generateToken : Nat → String} {hashToken s}
  {tokenTtlSecs : Option UInt64} {s' : CredentialServer} {token : String}

theorem lookups_of_not_stored (gone : ¬ s.Stored hashToken token) (now : Int64) :
    s.userIdForSession hashToken token now = none ∧ s.resolve hashToken token now = none := by
  constructor
  · refine Option.map_eq_none_iff.mpr (List.find?_eq_none.mpr fun r stored hit => gone ?_)
    exact .inl ⟨r, stored, (of_decide_eq_true hit).1⟩
  · refine Option.map_eq_none_iff.mpr (Option.eq_none_iff_forall_ne_some.mpr ?_)
    intro owner resolves
    obtain ⟨t, stored, -, -, hash, -⟩ := DeviceDb.of_resolve resolves
    exact gone (.inr ⟨t, stored, hash⟩)

/-- A step draws tokens, and at most the next one is stored. -/
theorem stored_step {l : CredentialLabel}
    (step : s.step crypto generateToken hashToken tokenTtlSecs l = some s') :
    s.tokens.generated ≤ s'.tokens.generated ∧ ∀ token, s'.Stored hashToken token →
      s.Stored hashToken token ∨ (s.tokens.generated < s'.tokens.generated ∧
        hashToken token = hashToken (generateToken s.tokens.generated)) := by
  cases l with
  | registry l =>
      obtain ⟨t, moved, rfl⟩ := Option.map_eq_some_iff.mp step
      obtain ⟨le, rows⟩ := (TokenServer.registryStep_moves moved).tokens
      refine ⟨le, fun token stored => ?_⟩
      obtain session | ⟨row, listed, hash⟩ := stored
      · exact .inl (.inl session)
      · obtain before | ⟨less, new⟩ := rows row listed
        · exact .inl (.inr ⟨row, before, hash⟩)
        · exact .inr ⟨less, hash.symm.trans new⟩
  | login user ok now =>
      rw [← Option.some.inj step]
      cases user with
      | error e => exact ⟨Nat.le_refl _, fun token stored => .inl stored⟩
      | ok userId =>
          simp only [login, mintUserSession]
          split
          · refine ⟨Nat.le_succ _, fun token stored => ?_⟩
            obtain ⟨r, listed, hash⟩ | device := stored
            · obtain before | new := List.mem_append.mp listed
              · exact .inl (.inl ⟨r, before, hash⟩)
              · obtain rfl := List.mem_singleton.mp new
                exact .inr ⟨Nat.lt_succ_self _, hash.symm⟩
            · exact .inl (.inr device)
          · exact ⟨Nat.le_succ _, fun token stored => .inl stored⟩
  | revokeUserSession token ok =>
      rw [← Option.some.inj step]
      cases ok with
      | false => exact ⟨Nat.le_refl _, fun token stored => .inl stored⟩
      | true =>
          refine ⟨Nat.le_refl _, fun token stored => .inl ?_⟩
          obtain ⟨r, listed, hash⟩ | device := stored
          · exact .inl ⟨r, List.mem_of_mem_filter listed, hash⟩
          · exact .inr device

theorem stored_of_session {now : Int64} {userId : Int}
    (found : s.userIdForSession hashToken token now = some userId) : s.Stored hashToken token := by
  by_contra gone
  cases (lookups_of_not_stored gone now).1.symm.trans found

variable (hashToken s) in
theorem answer_spec (token : String) (ok : Bool) (now : Int64) :
    (∃ cred, s.answer hashToken token ok now = .resolved cred ∧ s.Stored hashToken token) ∨
      s.answer hashToken token ok now = .refused .unauthorized := by
  unfold answer
  split
  · rename_i cred resolves
    refine .inl ⟨cred, rfl, ?_⟩
    by_contra gone
    cases (lookups_of_not_stored gone now).2.symm.trans resolves
  · exact .inr rfl

theorem unsigned_spec (authorization query : Option String) :
    (∃ token, unsigned authorization query = .resolving token ∧
      requestToken authorization query = some token) ∨
      unsigned authorization query = .refused .unauthorized := by
  unfold unsigned
  split
  · rename_i token presented
    exact .inl ⟨token, rfl, presented⟩
  · exact .inr rfl

/-- A lookup that finds a credential, or goes on, does so for the token of the request. -/
theorem lookUp_spec {request : WsRequest} {stage stage' : WsStage} {ok : Bool} {now : Int64}
    (resolving : ∀ token, stage = .resolving token → request.bearer = some token)
    (looked : s.lookUp hashToken request stage ok now = some stage') :
    (∃ token, stage' = .resolving token ∧ request.bearer = some token) ∨
      (stage'.found = true ∧ stage'.pending = true ∧
        ∃ token, request.bearer = some token ∧ s.Stored hashToken token) ∨
      ∃ e, stage' = .refused e := by
  unfold lookUp at looked
  split at looked
  · rename_i authorization query
    split at looked
    · rw [← Option.some.inj looked]
      obtain ⟨token, same, presented⟩ | refused := unsigned_spec authorization query
      · exact .inl ⟨token, same, presented⟩
      · exact .inr (.inr ⟨_, refused⟩)
    · rename_i token header
      split at looked
      · split at looked
        · rename_i userId session
          rw [← Option.some.inj looked]
          refine .inr (.inl ⟨rfl, rfl, token, ?_, stored_of_session session⟩)
          rw [WsRequest.bearer, requestToken, header]
          rfl
        · rw [← Option.some.inj looked]
          obtain ⟨token, same, presented⟩ | refused := unsigned_spec authorization query
          · exact .inl ⟨token, same, presented⟩
          · exact .inr (.inr ⟨_, refused⟩)
      · exact .inr (.inr ⟨_, (Option.some.inj looked).symm⟩)
  · rename_i token
    rw [← Option.some.inj looked]
    obtain ⟨cred, same, stored⟩ | refused := s.answer_spec hashToken token ok now
    · exact .inr (.inl ⟨same ▸ rfl, same ▸ rfl, token, resolving token rfl, stored⟩)
    · exact .inr (.inr ⟨_, refused⟩)
  · rename_i token
    rw [← Option.some.inj looked]
    obtain ⟨cred, same, stored⟩ | refused := s.answer_spec hashToken token ok now
    · exact .inr (.inl ⟨same ▸ rfl, same ▸ rfl, token, rfl, stored⟩)
    · exact .inr (.inr ⟨_, refused⟩)
  · exact .inr (.inr ⟨_, (Option.some.inj looked).symm⟩)
  · cases looked

theorem found_of_lookUp {request : WsRequest} {stage stage' : WsStage} {ok : Bool} {now : Int64}
    (looked : s.lookUp hashToken request stage ok now = some stage') : stage.found = false := by
  unfold lookUp at looked
  split at looked
  · rfl
  · rfl
  · rfl
  · rfl
  · cases looked

end CredentialServer

/-- The ticket that a socket was opened with, for which credential and when. -/
def WsCall.redemption : WsCall → Option (String × ResolvedCredential × Option Nat)
  | ⟨.ws (some ticket) _, .accepted cred redeemed _⟩ => some (ticket, cred, redeemed)
  | _ => none

theorem WsCall.redemption_of_bearer {c : WsCall} {token : String}
    (presents : c.request.bearer = some token) (stage : WsStage) :
    ({ c with stage } : WsCall).redemption = none := by
  obtain ⟨request, old⟩ := c
  cases request with
  | wsTicket authorization query => rfl
  | ws ticket other =>
      cases ticket with
      | none => rfl
      | some ticket => cases presents

theorem WsCall.redemption_of_request {c : WsCall} {ticket : String} {other : Option String}
    (request : c.request = .ws (some ticket) other) (cred : ResolvedCredential)
    (redeemed channel : Option Nat) :
    ({ c with stage := .accepted cred redeemed channel } : WsCall).redemption =
      some (ticket, cred, redeemed) := by
  obtain ⟨request', stage⟩ := c
  obtain rfl : request' = _ := request
  rfl

theorem WsCall.redemption_eq_none {c : WsCall}
    (waits : ∀ cred redeemed channel, c.stage ≠ .accepted cred redeemed channel) :
    c.redemption = none := by
  unfold redemption
  split
  · exact absurd rfl (waits _ _ _)
  · rfl

namespace SignalingServer
variable {J : Type} {crypto : Crypto} {generateToken : Nat → String}
  {hashToken : String → String} {tokenTtlSecs : Option UInt64} {ttl : Nat}
  {s s' : SignalingServer}

def Issued (s : SignalingServer) (ticket : String) (cred : ResolvedCredential) (expires : Nat) :
    Prop :=
  ∃ c ∈ s.calls, c.stage = .issued ticket cred expires

variable (crypto generateToken hashToken tokenTtlSecs ttl s s') in
/-- What a step does. -/
inductive Does (l : SignalingLabel J) : Prop
  | creds (cl : CredentialLabel) (creds : CredentialServer)
      (step : s.creds.step crypto generateToken hashToken tokenTtlSecs cl = some creds)
      (same : s' = { s with creds })
  | arrives (request : WsRequest) (same : s' = { s with calls := s.calls ++ [⟨request, .arrived⟩] })
  | looks (i : Nat) (c : WsCall) (stage : WsStage) (ok : Bool) (now : Int64)
      (found : s.calls[i]? = some c)
      (looked : s.creds.lookUp hashToken c.request c.stage ok now = some stage)
      (same : s' = s.setStage i c stage)
  | issues (i : Nat) (c : WsCall) (cred : ResolvedCredential) (now n : Nat)
      (found : s.calls[i]? = some c) (was : c.stage.found = true) (pending : c.stage.pending = true)
      (drawn : s.creds.tokens.generated ≤ n) (generated : s'.creds.tokens.generated = n + 1)
      (stored : ∀ token, s'.creds.Stored hashToken token ↔ s.creds.Stored hashToken token)
      (calls : s'.calls = (s.setStage i c (.issued (generateToken n) cred (now + ttl))).calls)
      (tickets : s'.tickets = s.tickets.issue ttl (generateToken n) cred now) (hub : s'.hub = s.hub)
  | redeems (i : Nat) (c : WsCall) (ticket : String) (other : Option String) (now : Nat)
      (found : s.calls[i]? = some c) (request : c.request = .ws (some ticket) other)
      (stage : c.stage = .arrived) (same : s' = s.redeem i c ticket now)
  | accepts (i : Nat) (c : WsCall) (cred : ResolvedCredential) (found : s.calls[i]? = some c)
      (stage : c.stage = .resolved cred) (same : s' = s.setStage i c (.accepted cred none none))
  | connects (i : Nat) (c : WsCall) (cred : ResolvedCredential) (redeemed : Option Nat)
      (channel : Nat) (label : l = .connect i channel) (found : s.calls[i]? = some c)
      (stage : c.stage = .accepted cred redeemed none)
      (same : s' = { s.setStage i c (.accepted cred redeemed (some channel)) with
        hub := (s.hub.step (J := J) (.register (connection cred channel))).1 })
  | aborts (i : Nat) (c : WsCall) (found : s.calls[i]? = some c) (pending : c.stage.pending = true)
      (same : s' = s.setStage i c .aborted)
  | hubs (hl : HubLabel J) (label : l = .hub hl) (registers : hl.registers = none)
      (same : s' = { s with hub := (s.hub.step hl).1 })

theorem step_does {l : SignalingLabel J}
    (step : s.step crypto generateToken hashToken tokenTtlSecs ttl l = some s') :
    Does crypto generateToken hashToken tokenTtlSecs ttl s s' l := by
  cases l with
  | creds cl =>
      obtain ⟨creds, taken, rfl⟩ := Option.map_eq_some_iff.mp step
      exact .creds cl creds taken rfl
  | arrive request => exact .arrives request (Option.some.inj step).symm
  | lookUp i ok now =>
      obtain ⟨c, found, step⟩ := Option.bind_eq_some_iff.mp step
      obtain ⟨stage, looked, rfl⟩ := Option.map_eq_some_iff.mp step
      exact .looks i c stage ok now found looked rfl
  | issue i now =>
      obtain ⟨c, found, step⟩ := Option.bind_eq_some_iff.mp step
      obtain ⟨-, step⟩ := Option.ite_none_right_eq_some.mp step
      split at step
      · rename_i authorization query userId request stage
        rw [← Option.some.inj step]
        exact .issues i c _ now (s.creds.tokens.generated + 1) found (by rw [stage]; rfl)
          (by rw [stage]; rfl) (Nat.le_succ _) rfl (fun _ => Iff.rfl) rfl rfl rfl
      · rename_i authorization query cred request stage
        rw [← Option.some.inj step]
        exact .issues i c cred now s.creds.tokens.generated found (by rw [stage]; rfl)
          (by rw [stage]; rfl) (Nat.le_refl _) rfl (fun _ => Iff.rfl) rfl rfl rfl
      · cases step
  | redeem i now =>
      obtain ⟨c, found, step⟩ := Option.bind_eq_some_iff.mp step
      obtain ⟨-, step⟩ := Option.ite_none_right_eq_some.mp step
      split at step
      · rename_i ticket other request stage
        exact .redeems i c ticket other now found request stage (Option.some.inj step).symm
      · cases step
  | accept i =>
      obtain ⟨c, found, step⟩ := Option.bind_eq_some_iff.mp step
      split at step
      · rename_i ticket token cred request stage
        exact .accepts i c cred found stage (Option.some.inj step).symm
      · cases step
  | connect i channel =>
      obtain ⟨c, found, step⟩ := Option.bind_eq_some_iff.mp step
      split at step
      · rename_i cred redeemed stage
        obtain ⟨-, step⟩ := Option.ite_none_right_eq_some.mp step
        exact .connects i c cred redeemed channel rfl found stage (Option.some.inj step).symm
      · cases step
  | abort i =>
      obtain ⟨c, found, step⟩ := Option.bind_eq_some_iff.mp step
      obtain ⟨pending, step⟩ := Option.ite_none_right_eq_some.mp step
      exact .aborts i c found pending (Option.some.inj step).symm
  | hub hl =>
      obtain ⟨registers, step⟩ := Option.ite_none_right_eq_some.mp step
      exact .hubs hl rfl registers (Option.some.inj step).symm

/-- What is so of the server whatever is revoked. -/
structure Tracked (generateToken : Nat → String) (hashToken : String → String)
    (s : SignalingServer) : Prop where
  drawn : ∀ token, s.creds.Stored hashToken token →
    ∃ n < s.creds.tokens.generated, hashToken token = hashToken (generateToken n)
  resolving : ∀ c ∈ s.calls, ∀ token, c.stage = .resolving token → c.request.bearer = some token
  looked : ∀ c ∈ s.calls, c.stage.found = true → c.stage.pending = true →
    ∃ token, c.request.bearer = some token
  held : ∀ ticket cred expires, s.tickets.inner ticket = some (cred, expires) →
    s.Issued ticket cred expires
  issued : ∀ ticket cred expires, s.Issued ticket cred expires →
    ∃ n < s.creds.tokens.generated, ticket = generateToken n
  spent : ∀ c ∈ s.calls, ∀ ticket cred redeemed, c.redemption = some (ticket, cred, redeemed) →
    s.tickets.inner ticket = none ∧ ∃ time expires, redeemed = some time ∧ time < expires ∧
      s.Issued ticket cred expires
  once : ∀ (i j : Nat) (c c' : WsCall) ticket p p', s.calls[i]? = some c →
    s.calls[j]? = some c' → c.redemption = some (ticket, p) →
      c'.redemption = some (ticket, p') → i = j

theorem Issued.set {i : Nat} {c : WsCall} {stage : WsStage} {ticket : String}
    {cred : ResolvedCredential} {expires : Nat} (given : s.Issued ticket cred expires)
    (found : s.calls[i]? = some c) (calls : s'.calls = s.calls.set i { c with stage })
    (was : ∀ ticket cred expires, c.stage ≠ .issued ticket cred expires) :
    s'.Issued ticket cred expires := by
  obtain ⟨c', member, given⟩ := given
  refine ⟨c', calls ▸ Slots.mem_set_of_ne found member ?_, given⟩
  rintro rfl
  exact was ticket cred expires given

theorem Issued.of_set {i : Nat} {c : WsCall} {stage : WsStage} {ticket : String}
    {cred : ResolvedCredential} {expires : Nat} (given : s'.Issued ticket cred expires)
    (calls : s'.calls = s.calls.set i { c with stage }) :
    s.Issued ticket cred expires ∨ stage = .issued ticket cred expires := by
  obtain ⟨c', member, given⟩ := given
  rw [calls] at member
  rcases List.mem_or_eq_of_mem_set member with old | rfl
  · exact .inl ⟨c', old, given⟩
  · exact .inr given

/-- A socket that was opened with a ticket was so before. -/
def OpensNone (s s' : SignalingServer) : Prop :=
  ∀ (i : Nat) (c' : WsCall) p, s'.calls[i]? = some c' → c'.redemption = some p →
    ∃ c, s.calls[i]? = some c ∧ c.redemption = some p

theorem opensNone_set {i : Nat} {c : WsCall} {stage : WsStage} (found : s.calls[i]? = some c)
    (calls : s'.calls = s.calls.set i { c with stage })
    (redemption : ({ c with stage } : WsCall).redemption = none ∨
      ({ c with stage } : WsCall).redemption = c.redemption) : s.OpensNone s' := by
  intro j c' p at_ opened
  rw [calls] at at_
  rcases Slots.getElem?_set_cases at_ with ⟨rfl, rfl⟩ | ⟨-, old⟩
  · refine ⟨c, found, ?_⟩
    rcases redemption with none_ | same
    · cases none_.symm.trans opened
    · exact same.symm.trans opened
  · exact ⟨c', old, opened⟩

variable (s) in
/-- What a ticket gives: a socket, if it is there and has not expired. -/
theorem redeem_stage (i : Nat) (c : WsCall) (ticket : String) (now : Nat) :
    ∃ stage, (s.redeem i c ticket now).calls = s.calls.set i { c with stage } ∧
      (stage = .refused .unauthorized ∨ ∃ cred expires, stage = .accepted cred (some now) none ∧
        s.tickets.inner ticket = some (cred, expires) ∧ now < expires) := by
  refine ⟨_, rfl, ?_⟩
  rw [TicketStore.redeem_got]
  split
  · rename_i cred got
    obtain ⟨⟨cred, expires⟩, inside, rfl⟩ := Option.map_eq_some_iff.mp got
    obtain ⟨inside, alive⟩ := Option.filter_eq_some_iff.mp inside
    exact .inr ⟨cred, expires, rfl, inside, of_decide_eq_true alive⟩
  · exact .inl rfl

namespace Tracked

theorem init (clock : Nat) : Tracked generateToken hashToken {
    creds := ⟨⟨⟨[], []⟩, [], 0⟩, []⟩, calls := [], tickets := .new, clock, hub := .new } where
  drawn token stored := by
    obtain ⟨r, listed, -⟩ | ⟨t, listed, -⟩ := stored
    · exact absurd listed List.not_mem_nil
    · exact absurd listed List.not_mem_nil
  resolving := nofun
  looked := nofun
  held := nofun
  issued ticket cred expires given := by
    obtain ⟨c, member, -⟩ := given
    exact absurd member List.not_mem_nil
  spent := nofun
  once i j c c' ticket p p' found := by
    rw [List.getElem?_nil] at found
    cases found

theorem spent_of_opensNone (h : Tracked generateToken hashToken s) (opens : s.OpensNone s')
    (still : ∀ ticket cred expires, s.Issued ticket cred expires → s'.Issued ticket cred expires)
    (gone : ∀ ticket cred expires, s.Issued ticket cred expires → s.tickets.inner ticket = none →
      s'.tickets.inner ticket = none) :
    ∀ c ∈ s'.calls, ∀ ticket cred redeemed, c.redemption = some (ticket, cred, redeemed) →
      s'.tickets.inner ticket = none ∧ ∃ time expires, redeemed = some time ∧ time < expires ∧
        s'.Issued ticket cred expires := by
  intro c' member ticket cred redeemed opened
  obtain ⟨j, at_⟩ := List.mem_iff_getElem?.mp member
  obtain ⟨c, old, same⟩ := opens j c' _ at_ opened
  obtain ⟨none_, time, expires, rfl, less, given⟩ :=
    h.spent c (List.mem_of_getElem? old) ticket cred redeemed same
  exact ⟨gone _ _ _ given none_, time, expires, rfl, less, still _ _ _ given⟩

theorem once_of_opensNone (h : Tracked generateToken hashToken s) (opens : s.OpensNone s') :
    ∀ (i j : Nat) (c c' : WsCall) ticket p p', s'.calls[i]? = some c → s'.calls[j]? = some c' →
      c.redemption = some (ticket, p) → c'.redemption = some (ticket, p') → i = j := by
  intro i j c c' ticket p p' one two opened opened'
  obtain ⟨c₁, old, same⟩ := opens i c _ one opened
  obtain ⟨c₂, old', same'⟩ := opens j c' _ two opened'
  exact h.once i j c₁ c₂ ticket p p' old old' same same'

/-- A call that goes on, and neither is given a ticket nor opens a socket with one. -/
theorem moves (h : Tracked generateToken hashToken s) {i : Nat} {c : WsCall} {stage : WsStage}
    (found : s.calls[i]? = some c)
    (was : ∀ ticket cred expires, c.stage ≠ .issued ticket cred expires)
    (next : ∀ ticket cred expires, stage ≠ .issued ticket cred expires)
    (resolving : ∀ token, stage = .resolving token → c.request.bearer = some token)
    (looked : stage.found = true → stage.pending = true → ∃ token, c.request.bearer = some token)
    (redemption : ({ c with stage } : WsCall).redemption = none ∨
      ({ c with stage } : WsCall).redemption = c.redemption) :
    Tracked generateToken hashToken (s.setStage i c stage) := by
  have opens : s.OpensNone (s.setStage i c stage) := opensNone_set found rfl redemption
  have still : ∀ ticket cred expires, s.Issued ticket cred expires →
      (s.setStage i c stage).Issued ticket cred expires :=
    fun ticket cred expires given => given.set found rfl was
  constructor
  · exact h.drawn
  · exact Slots.forall_mem_set h.resolving resolving
  · exact Slots.forall_mem_set h.looked looked
  · intro ticket cred expires inside
    exact still _ _ _ (h.held ticket cred expires inside)
  · intro ticket cred expires given
    rcases given.of_set rfl with old | new
    · exact h.issued ticket cred expires old
    · exact absurd new (next ticket cred expires)
  · exact h.spent_of_opensNone opens still fun _ _ _ _ none_ => none_
  · exact h.once_of_opensNone opens

/-- The tables change, and tokens are drawn. -/
theorem of_creds (h : Tracked generateToken hashToken s) {creds : CredentialServer}
    (le : s.creds.tokens.generated ≤ creds.tokens.generated)
    (stored : ∀ token, creds.Stored hashToken token → s.creds.Stored hashToken token ∨
      (s.creds.tokens.generated < creds.tokens.generated ∧
        hashToken token = hashToken (generateToken s.creds.tokens.generated))) :
    Tracked generateToken hashToken { s with creds } where
  drawn token listed := by
    obtain old | ⟨less, hash⟩ := stored token listed
    · obtain ⟨n, less, hash⟩ := h.drawn token old
      exact ⟨n, Nat.lt_of_lt_of_le less le, hash⟩
    · exact ⟨_, less, hash⟩
  resolving := h.resolving
  looked := h.looked
  held := h.held
  issued ticket cred expires given := by
    obtain ⟨n, less, same⟩ := h.issued ticket cred expires given
    exact ⟨n, Nat.lt_of_lt_of_le less le, same⟩
  spent := h.spent
  once := h.once

/-- A ticket that was drawn for it is given to a call. -/
theorem issues (h : Tracked generateToken hashToken s)
    {i : Nat} {c : WsCall} {cred : ResolvedCredential} {now n : Nat}
    (fresh : Set.InjOn generateToken (Set.Iio (n + 1)))
    (found : s.calls[i]? = some c) (was : c.stage.found = true) (pending : c.stage.pending = true)
    (drawn : s.creds.tokens.generated ≤ n) (generated : s'.creds.tokens.generated = n + 1)
    (stored : ∀ token, s'.creds.Stored hashToken token ↔ s.creds.Stored hashToken token)
    (calls : s'.calls =
      s.calls.set i { c with stage := .issued (generateToken n) cred (now + ttl) })
    (tickets : s'.tickets = s.tickets.issue ttl (generateToken n) cred now) :
    Tracked generateToken hashToken s' := by
  have still : ∀ ticket cred' expires, s.Issued ticket cred' expires →
      s'.Issued ticket cred' expires := by
    intro ticket cred' expires given
    refine given.set found calls fun _ _ _ issued => ?_
    rw [issued] at pending
    cases pending
  -- a ticket that was given before is another one
  have other : ∀ ticket cred' expires, s.Issued ticket cred' expires →
      ticket ≠ generateToken n := by
    rintro ticket cred' expires given rfl
    obtain ⟨m, less, same⟩ := h.issued _ cred' expires given
    have earlier := Nat.lt_of_lt_of_le less drawn
    exact Nat.ne_of_lt earlier (fresh (Nat.lt_succ_self n) (Nat.lt_succ_of_lt earlier) same).symm
  obtain ⟨token, presents⟩ := h.looked c (List.mem_of_getElem? found) was pending
  have opens : s.OpensNone s' :=
    opensNone_set found calls (.inl (WsCall.redemption_of_bearer presents _))
  have put : ∀ ticket, s'.tickets.inner ticket =
      s.tickets.inner.put now (generateToken n) cred (now + ttl) ticket := by
    intro ticket
    rw [tickets]
    rfl
  constructor
  · intro token listed
    obtain ⟨m, less, hash⟩ := h.drawn token ((stored token).mp listed)
    exact ⟨m, generated ▸ Nat.lt_succ_of_lt (Nat.lt_of_lt_of_le less drawn), hash⟩
  · rw [calls]
    exact Slots.forall_mem_set h.resolving (by rintro token ⟨⟩)
  · rw [calls]
    exact Slots.forall_mem_set h.looked (by rintro - ⟨⟩)
  · intro ticket cred' expires inside
    rw [put] at inside
    by_cases same : ticket = generateToken n
    · subst same
      rw [Store.put, Function.update_self, Option.some.injEq] at inside
      obtain ⟨rfl, rfl⟩ := Prod.mk.inj inside
      refine ⟨{ c with stage := .issued (generateToken n) cred (now + ttl) }, ?_, rfl⟩
      rw [calls]
      exact List.mem_set (List.getElem?_eq_some_iff.mp found).1 _
    · rw [Store.put, Function.update_of_ne same] at inside
      exact still _ _ _ (h.held ticket cred' expires (Option.filter_eq_some_iff.mp inside).1)
  · intro ticket cred' expires given
    rcases given.of_set calls with old | new
    · obtain ⟨m, less, same⟩ := h.issued ticket cred' expires old
      exact ⟨m, generated ▸ Nat.lt_succ_of_lt (Nat.lt_of_lt_of_le less drawn), same⟩
    · obtain ⟨rfl, -, -⟩ := WsStage.issued.inj new
      exact ⟨n, generated ▸ Nat.lt_succ_self n, rfl⟩
  · refine h.spent_of_opensNone opens still fun ticket cred' expires given none_ => ?_
    rw [put, Store.put, Function.update_of_ne (other ticket cred' expires given), Store.retain,
      none_]
    rfl
  · exact h.once_of_opensNone opens

/-- A ticket goes from the store, and opens a socket if it has not expired. -/
theorem redeems (h : Tracked generateToken hashToken s) {i : Nat} {c : WsCall} {ticket : String}
    {other : Option String} {now : Nat} (found : s.calls[i]? = some c)
    (request : c.request = .ws (some ticket) other) (stage : c.stage = .arrived) :
    Tracked generateToken hashToken (s.redeem i c ticket now) := by
  obtain ⟨stage', calls, answers⟩ := s.redeem_stage i c ticket now
  have still : ∀ t cred expires, s.Issued t cred expires →
      (s.redeem i c ticket now).Issued t cred expires := by
    intro t cred expires given
    refine given.set found calls fun _ _ _ issued => ?_
    cases stage.symm.trans issued
  have taken : ∀ t, t ≠ ticket → (s.redeem i c ticket now).tickets.inner t = s.tickets.inner t :=
    fun t ne => Function.update_of_ne ne ..
  have gone : (s.redeem i c ticket now).tickets.inner ticket = none := Function.update_self ..
  have goes : ∀ t, s.tickets.inner t = none → (s.redeem i c ticket now).tickets.inner t = none := by
    intro t none_
    by_cases same : t = ticket
    · exact same ▸ gone
    · exact (taken t same).trans none_
  refine ⟨h.drawn, ?_, ?_, ?_, ?_, ?_, ?_⟩
  · rw [calls]
    refine Slots.forall_mem_set h.resolving ?_
    rcases answers with rfl | ⟨cred, expires, rfl, -, -⟩
    · rintro token ⟨⟩
    · rintro token ⟨⟩
  · rw [calls]
    refine Slots.forall_mem_set h.looked ?_
    rcases answers with rfl | ⟨cred, expires, rfl, -, -⟩
    · rintro ⟨⟩
    · rintro - ⟨⟩
  · intro t cred expires inside
    have ne : t ≠ ticket := by
      intro same
      rw [same, gone] at inside
      cases inside
    exact still _ _ _ (h.held t cred expires ((taken t ne).symm.trans inside))
  · intro t cred expires given
    rcases given.of_set calls with old | new
    · exact h.issued t cred expires old
    · rcases answers with rfl | ⟨cred', expires', rfl, -, -⟩
      · cases new
      · cases new
  all_goals rcases answers with rfl | ⟨cred, expires, rfl, inside, less⟩
  · have opens := opensNone_set found calls
      (.inl (WsCall.redemption_eq_none (by rintro _ _ _ ⟨⟩)))
    exact h.spent_of_opensNone opens still fun t _ _ _ none_ => goes t none_
  · rw [calls]
    refine Slots.forall_mem_set ?_ ?_
    · intro c' old t cred' redeemed opened
      obtain ⟨none_, time, expires', rfl, less, given⟩ := h.spent c' old t cred' redeemed opened
      exact ⟨goes t none_, time, expires', rfl, less, still _ _ _ given⟩
    · intro t cred' redeemed opened
      cases (WsCall.redemption_of_request request cred (some now) none).symm.trans opened
      exact ⟨gone, now, expires, rfl, less, still _ _ _ (h.held _ cred expires inside)⟩
  · exact h.once_of_opensNone (opensNone_set found calls
      (.inl (WsCall.redemption_eq_none (by rintro _ _ _ ⟨⟩))))
  · -- the ticket is there, so it has opened no socket before
    have clash : ∀ (m : Nat) (c₀ : WsCall) q, s.calls[m]? = some c₀ →
        c₀.redemption ≠ some (ticket, q) := by
      intro m c₀ q old opened
      cases (h.spent c₀ (List.mem_of_getElem? old) ticket _ _ opened).1.symm.trans inside
    have own := WsCall.redemption_of_request request cred (some now) none
    intro j k c' c'' t p p' one two opened opened'
    rw [calls] at one two
    rcases Slots.getElem?_set_cases one with ⟨rfl, rfl⟩ | ⟨-, old⟩
    · rcases Slots.getElem?_set_cases two with ⟨rfl, -⟩ | ⟨-, old'⟩
      · rfl
      · cases own.symm.trans opened
        exact absurd opened' (clash k c'' p' old')
    · rcases Slots.getElem?_set_cases two with ⟨rfl, rfl⟩ | ⟨-, old'⟩
      · cases own.symm.trans opened'
        exact absurd opened (clash j c' p old)
      · exact h.once j k c' c'' t p p' old old' opened opened'

theorem of_hub (h : Tracked generateToken hashToken s) (hub : Hub) :
    Tracked generateToken hashToken { s with hub } :=
  ⟨h.drawn, h.resolving, h.looked, h.held, h.issued, h.spent, h.once⟩

theorem arrives (h : Tracked generateToken hashToken s) (request : WsRequest) :
    Tracked generateToken hashToken { s with calls := s.calls ++ [⟨request, .arrived⟩] } := by
  have opens : s.OpensNone { s with calls := s.calls ++ [⟨request, .arrived⟩] } := by
    intro j c p at_ opened
    rcases Slots.getElem?_concat_cases at_ with old | ⟨-, rfl⟩
    · exact ⟨c, old, opened⟩
    · cases (WsCall.redemption_eq_none (by rintro _ _ _ ⟨⟩)).symm.trans opened
  have still : ∀ ticket cred expires, s.Issued ticket cred expires → SignalingServer.Issued
      { s with calls := s.calls ++ [⟨request, .arrived⟩] } ticket cred expires := by
    rintro ticket cred expires ⟨c, member, given⟩
    exact ⟨c, List.mem_append_left _ member, given⟩
  refine ⟨h.drawn, Slots.forall_mem_concat h.resolving (by rintro token ⟨⟩),
    Slots.forall_mem_concat h.looked (by rintro ⟨⟩), ?_, ?_,
    h.spent_of_opensNone opens still fun _ _ _ _ none_ => none_, h.once_of_opensNone opens⟩
  · intro ticket cred expires inside
    exact still _ _ _ (h.held ticket cred expires inside)
  · rintro ticket cred expires ⟨c, member, given⟩
    rcases List.mem_append.mp member with old | new
    · exact h.issued ticket cred expires ⟨c, old, given⟩
    · rw [List.mem_singleton.mp new] at given
      cases given

theorem step
    (distinct : TokenHistory.Distinct generateToken hashToken s'.creds.tokens.generated)
    (h : Tracked generateToken hashToken s) {l : SignalingLabel J}
    (does : Does crypto generateToken hashToken tokenTtlSecs ttl s s' l) :
    Tracked generateToken hashToken s' := by
  have fresh : Set.InjOn generateToken (Set.Iio s'.creds.tokens.generated) :=
    fun m less n less' same => distinct less less' (congrArg hashToken same)
  cases does with
  | creds cl creds step same =>
      obtain ⟨le, stored⟩ := CredentialServer.stored_step step
      exact same ▸ h.of_creds le stored
  | arrives request same => exact same ▸ h.arrives request
  | looks i c stage ok now found looked same =>
      subst same
      have was := CredentialServer.found_of_lookUp looked
      have member := List.mem_of_getElem? found
      have issued : ∀ ticket cred expires, c.stage ≠ .issued ticket cred expires := by
        intro ticket cred expires given
        rw [given] at was
        cases was
      obtain ⟨token, rfl, presents⟩ | ⟨finds, pending, token, presents, -⟩ | ⟨e, rfl⟩ :=
        CredentialServer.lookUp_spec (h.resolving c member) looked
      · refine h.moves found issued nofun ?_ nofun (.inl (WsCall.redemption_eq_none nofun))
        intro token' same
        rw [presents, WsStage.resolving.inj same]
      · refine h.moves found issued ?_ ?_ (fun _ _ => ⟨token, presents⟩) (.inl ?_)
        · rintro ticket cred expires rfl
          cases pending
        · rintro token' rfl
          cases finds
        · exact WsCall.redemption_of_bearer presents stage
      · exact h.moves found issued nofun nofun nofun (.inl (WsCall.redemption_eq_none nofun))
  | issues i c cred now n found was pending drawn generated stored calls tickets hub =>
      exact h.issues (generated ▸ fresh) found was pending drawn generated stored calls tickets
  | redeems i c ticket other now found request stage same =>
      exact same ▸ h.redeems found request stage
  | accepts i c cred found stage same =>
      subst same
      obtain ⟨token, presents⟩ := h.looked c (List.mem_of_getElem? found) (by rw [stage]; rfl)
        (by rw [stage]; rfl)
      refine h.moves found ?_ nofun nofun nofun (.inl (WsCall.redemption_of_bearer presents _))
      intro ticket cred' expires given
      cases stage.symm.trans given
  | connects i c cred redeemed channel label found stage same =>
      subst same
      have moved : Tracked generateToken hashToken
          (s.setStage i c (.accepted cred redeemed (some channel))) := by
        refine h.moves found ?_ nofun nofun nofun (.inr ?_)
        · intro ticket cred' expires given
          cases stage.symm.trans given
        · obtain ⟨request, old⟩ := c
          obtain rfl : old = .accepted cred redeemed none := stage
          cases request with
          | wsTicket authorization query => rfl
          | ws ticket token => cases ticket <;> rfl
      exact moved.of_hub _
  | aborts i c found pending same =>
      subst same
      refine h.moves found ?_ nofun nofun nofun (.inl (WsCall.redemption_eq_none nofun))
      intro ticket cred expires given
      rw [given] at pending
      cases pending
  | hubs hl label registers same => exact same ▸ h.of_hub _

end Tracked

theorem Does.generated_le {l : SignalingLabel J}
    (does : Does crypto generateToken hashToken tokenTtlSecs ttl s s' l) :
    s.creds.tokens.generated ≤ s'.creds.tokens.generated := by
  cases does with
  | creds cl creds step same => exact same ▸ (CredentialServer.stored_step step).1
  | arrives request same => exact same ▸ Nat.le_refl _
  | looks i c stage ok now found looked same => exact same ▸ Nat.le_refl _
  | issues i c cred now n found was pending drawn generated stored calls tickets hub =>
      exact generated ▸ Nat.le_succ_of_le drawn
  | redeems i c ticket other now found request stage same => exact same ▸ Nat.le_refl _
  | accepts i c cred found stage same => exact same ▸ Nat.le_refl _
  | connects i c cred redeemed channel label found stage same => exact same ▸ Nat.le_refl _
  | aborts i c found pending same => exact same ▸ Nat.le_refl _
  | hubs hl label registers same => exact same ▸ Nat.le_refl _

theorem tracked_of_reachable
    (run : (machine (J := J) crypto generateToken hashToken tokenTtlSecs ttl).Reachable s) :
    TokenHistory.Distinct generateToken hashToken s.creds.tokens.generated →
      Tracked generateToken hashToken s := by
  refine run.invariant (I := fun s =>
    TokenHistory.Distinct generateToken hashToken s.creds.tokens.generated →
      Tracked generateToken hashToken s) ?_ ?_
  · rintro s ⟨clock, rfl⟩ -
    exact .init clock
  · intro s l s' h step distinct
    have does := step_does step
    exact (h (distinct.earlier does.generated_le)).step distinct does

/-- A request that has found a credential under a token had found it in an earlier state. -/
def FoundBefore (s earlier : SignalingServer) (token : String) : Prop :=
  ∀ (i : Nat) (c : WsCall), s.calls[i]? = some c → c.request.bearer = some token →
    c.stage.found = true →
      ∃ c₀, earlier.calls[i]? = some c₀ ∧ c₀.request = c.request ∧ c₀.stage.found = true

/-- A ticket was issued for the credential of the socket that it opens, it opens one only, and
before it expires. -/
def TicketsOnce (s : SignalingServer) : Prop :=
  ∀ (i : Nat) (c : WsCall) ticket cred redeemed, s.calls[i]? = some c →
    c.redemption = some (ticket, cred, redeemed) →
      (∃ time expires, redeemed = some time ∧ time < expires ∧ s.Issued ticket cred expires) ∧
        ∀ (j : Nat) (c' : WsCall) p, s.calls[j]? = some c' → c'.redemption = some (ticket, p) →
          j = i

/-- A registered connection stays until its own socket is done or another takes its place. -/
def PeersKept (s : SignalingServer) (l : SignalingLabel J) (s' : SignalingServer) : Prop :=
  ∀ deviceId peer, s.hub.peers deviceId = some peer →
    s'.hub.peers deviceId = some peer ∨
      (∃ peer', s'.hub.peers deviceId = some peer' ∧ peer'.tx.signalingId = deviceId) ∨
      l = .hub (.unregister peer.tx)

theorem Tracked.ticketsOnce (h : Tracked generateToken hashToken s) : s.TicketsOnce := by
  intro i c ticket cred redeemed found opened
  refine ⟨(h.spent c (List.mem_of_getElem? found) ticket cred redeemed opened).2, ?_⟩
  intro j c' p found' opened'
  exact h.once j i c' c ticket p _ found' found opened' opened

theorem Does.peersKept {l : SignalingLabel J}
    (does : Does crypto generateToken hashToken tokenTtlSecs ttl s s' l) : s.PeersKept l s' := by
  intro deviceId peer here
  cases does with
  | creds cl creds step same => exact .inl (same ▸ here)
  | arrives request same => exact .inl (same ▸ here)
  | looks i c stage ok now found looked same => exact .inl (same ▸ here)
  | issues i c cred now n found was pending drawn generated stored calls tickets hub =>
      exact .inl (hub ▸ here)
  | redeems i c ticket other now found request stage same => exact .inl (same ▸ here)
  | accepts i c cred found stage same => exact .inl (same ▸ here)
  | connects i c cred redeemed channel label found stage same =>
      subst same
      simp only [Hub.step]
      split
      · by_cases own : deviceId = cred.signalingId
        · subst own
          exact .inr (.inl ⟨_, Function.update_self .., rfl⟩)
        · exact .inl ((Function.update_of_ne own ..).trans here)
      · exact .inl here
  | aborts i c found pending same => exact .inl (same ▸ here)
  | hubs hl label registers same =>
      subst same label
      simp only [Hub.step]
      split
      · cases hl with
        | register c => cases registers
        | receive c frame => exact .inl here
        | receiveEnds c => exact .inl here
        | sendEnds c => exact .inl here
        | unregister c =>
            by_cases own : deviceId = c.signalingId ∧
                (s.hub.peers c.signalingId).map (·.tx) = some c
            · obtain ⟨rfl, same⟩ := own
              rw [here] at same
              exact .inr (.inr (Option.some.inj same ▸ rfl))
            · refine .inl ?_
              show (s.hub.unregister c.signalingId c).peers deviceId = some peer
              rw [Hub.unregister_peers, if_neg own]
              exact here
      · exact .inl here

/-- A step that takes a token from its table leaves the hub alone. -/
theorem Does.hub_of_gone {l : SignalingLabel J} {token : String}
    (does : Does crypto generateToken hashToken tokenTtlSecs ttl s s' l)
    (stored : s.creds.Stored hashToken token) (gone : ¬ s'.creds.Stored hashToken token) :
    s'.hub = s.hub := by
  cases does with
  | creds cl creds step same => exact same ▸ rfl
  | arrives request same => exact same ▸ rfl
  | looks i c stage ok now found looked same => exact same ▸ rfl
  | issues i c cred now n found was pending drawn generated stored calls tickets hub => exact hub
  | redeems i c ticket other now found request stage same => exact same ▸ rfl
  | accepts i c cred found stage same => exact same ▸ rfl
  | connects i c cred redeemed channel label found stage same =>
      subst same
      exact absurd stored gone
  | aborts i c found pending same => exact same ▸ rfl
  | hubs hl label registers same =>
      subst same
      exact absurd stored gone

/-- After a revocation: the token is in no table, and was drawn before. -/
structure Revoked (generateToken : Nat → String) (hashToken : String → String)
    (earlier : SignalingServer) (token : String) (s : SignalingServer) : Prop where
  gone : ¬ s.creds.Stored hashToken token
  drawn : ∃ n < s.creds.tokens.generated, hashToken token = hashToken (generateToken n)
  before : s.FoundBefore earlier token

namespace Revoked
variable {earlier : SignalingServer} {token : String}

theorem foundBefore_set (h : s.FoundBefore earlier token) {i : Nat} {c : WsCall} {stage : WsStage}
    (found : s.calls[i]? = some c)
    (was : stage.found = true → c.request.bearer = some token → c.stage.found = true) :
    (s.setStage i c stage).FoundBefore earlier token := by
  intro j c' at_ presents finds
  obtain ⟨rfl, rfl⟩ | ⟨-, old⟩ := Slots.getElem?_set_cases at_
  · exact h j c found presents (was finds presents)
  · exact h j c' old presents finds

theorem step
    (distinct : TokenHistory.Distinct generateToken hashToken s'.creds.tokens.generated)
    (tracked : Tracked generateToken hashToken s)
    (h : Revoked generateToken hashToken earlier token s) {l : SignalingLabel J}
    (does : Does crypto generateToken hashToken tokenTtlSecs ttl s s' l) :
    Revoked generateToken hashToken earlier token s' := by
  obtain ⟨n, less, hash⟩ := h.drawn
  cases does with
  | creds cl creds step same =>
      subst same
      obtain ⟨le, stored⟩ := CredentialServer.stored_step step
      refine ⟨fun there => ?_, ⟨n, Nat.lt_of_lt_of_le less le, hash⟩, h.before⟩
      obtain old | ⟨drawn, new⟩ := stored token there
      · exact h.gone old
      · exact Nat.ne_of_lt less
          (distinct (Nat.lt_of_lt_of_le less le) drawn (hash.symm.trans new))
  | arrives request same =>
      subst same
      refine ⟨h.gone, h.drawn, fun i c at_ presents finds => ?_⟩
      obtain old | ⟨-, rfl⟩ := Slots.getElem?_concat_cases at_
      · exact h.before i c old presents finds
      · cases finds
  | looks i c stage ok now found looked same =>
      subst same
      refine ⟨h.gone, h.drawn, foundBefore_set h.before found fun finds presents => ?_⟩
      have member := List.mem_of_getElem? found
      obtain ⟨token', rfl, -⟩ | ⟨-, -, token', presents', stored⟩ | ⟨e, rfl⟩ :=
        CredentialServer.lookUp_spec (tracked.resolving c member) looked
      · cases finds
      · obtain rfl := Option.some.inj (presents.symm.trans presents')
        exact absurd stored h.gone
      · cases finds
  | issues i c cred now m found was pending drawn generated stored calls tickets hub =>
      refine ⟨fun there => h.gone ((stored token).mp there), ⟨n, ?_, hash⟩, ?_⟩
      · exact generated ▸ Nat.lt_succ_of_lt (Nat.lt_of_lt_of_le less drawn)
      · rw [FoundBefore, calls]
        exact foundBefore_set h.before found fun _ _ => was
  | redeems i c ticket other now found request stage same =>
      subst same
      refine ⟨h.gone, h.drawn, ?_⟩
      refine foundBefore_set h.before found fun _ presents => ?_
      rw [request] at presents
      cases presents
  | accepts i c cred found stage same =>
      subst same
      refine ⟨h.gone, h.drawn, foundBefore_set h.before found fun _ _ => ?_⟩
      rw [stage]
      rfl
  | connects i c cred redeemed channel label found stage same =>
      subst same
      have moved : (s.setStage i c (.accepted cred redeemed (some channel))).FoundBefore earlier
          token := foundBefore_set h.before found fun _ _ => by
        rw [stage]
        rfl
      exact ⟨h.gone, h.drawn, moved⟩
  | aborts i c found pending same =>
      subst same
      exact ⟨h.gone, h.drawn, foundBefore_set h.before found nofun⟩
  | hubs hl label registers same => exact same ▸ ⟨h.gone, h.drawn, h.before⟩

end Revoked

/-- Once a token has gone from its table it is looked up in vain. Only the requests that had found
a credential under it before go on, a ticket of theirs opens one socket before it expires, and
the sockets that are open are left alone. -/
theorem revocation_lasts {l : SignalingLabel J} {token : String} {t : SignalingServer}
    (distinct : TokenHistory.Distinct generateToken hashToken t.creds.tokens.generated)
    (run : (machine (J := J) crypto generateToken hashToken tokenTtlSecs ttl).Reachable s)
    (step : s.step crypto generateToken hashToken tokenTtlSecs ttl l = some s')
    (stored : s.creds.Stored hashToken token) (gone : ¬ s'.creds.Stored hashToken token)
    (rest : ((machine (J := J) crypto generateToken hashToken tokenTtlSecs ttl).startingAt
      s').Reachable t) :
    (∀ now, t.creds.userIdForSession hashToken token now = none ∧
      t.creds.resolve hashToken token now = none) ∧
    t.FoundBefore s' token ∧ t.TicketsOnce ∧ s'.hub = s.hub ∧
    ∀ (l' : SignalingLabel J) t', t.step crypto generateToken hashToken tokenTtlSecs ttl l' = some t' →
      t.PeersKept l' t' := by
  have does := step_does step
  have both : TokenHistory.Distinct generateToken hashToken t.creds.tokens.generated →
      Tracked generateToken hashToken t ∧ Revoked generateToken hashToken s' token t := by
    refine rest.invariant (I := fun t =>
      TokenHistory.Distinct generateToken hashToken t.creds.tokens.generated →
        Tracked generateToken hashToken t ∧ Revoked generateToken hashToken s' token t) ?_ ?_
    · rintro _ rfl distinct
      have tracked := tracked_of_reachable run (distinct.earlier does.generated_le)
      obtain ⟨n, less, hash⟩ := tracked.drawn token stored
      exact ⟨tracked.step distinct does, gone, ⟨n, Nat.lt_of_lt_of_le less does.generated_le, hash⟩,
        fun i c found _ finds => ⟨c, found, rfl, finds⟩⟩
    · intro u l' u' both step distinct
      have does := step_does step
      obtain ⟨tracked, revoked⟩ := both (distinct.earlier does.generated_le)
      exact ⟨tracked.step distinct does, revoked.step distinct tracked does⟩
  obtain ⟨tracked', revoked⟩ := both distinct
  exact ⟨CredentialServer.lookups_of_not_stored revoked.gone, revoked.before, tracked'.ticketsOnce,
    does.hub_of_gone stored gone, fun l' t' step => (step_does step).peersKept⟩

instance {c : CredentialServer} {token : String} : Decidable (c.Stored hashToken token) :=
  inferInstanceAs (Decidable (_ ∨ _))

def fresh : SignalingServer where
  creds := ⟨⟨⟨[], []⟩, [], 0⟩, []⟩
  calls := []
  tickets := .new
  clock := 0
  hub := .new

def sampleMachine : Machine SignalingServer (SignalingLabel String) :=
  machine sampleCrypto TokenHistory.sampleToken id none (ticketTtl none)

/-- The second token is that of a device. It opens a socket and is exchanged for a ticket. -/
def deviceOnline : List (SignalingLabel String) :=
  .creds (.login (.ok 1) true 0) ::
  (TokenServer.registrationOf 0 1 "ab12" "laptop" ++ TokenServer.finishing 0).map
    (fun l => .creds (.registry l)) ++
  [.arrive (.ws none (some "f")), .lookUp 0 true 0, .accept 0, .connect 0 0,
    .arrive (.wsTicket (some "Bearer f") none), .lookUp 1 true 0, .lookUp 1 true 0, .issue 1 5]

def deletion : SignalingLabel String :=
  .creds (.registry (.deleteDevice (.ok 1) "ab12" true))

/-- The token is presented once more, and then the ticket. -/
def afterwards : List (SignalingLabel String) :=
  [.arrive (.ws none (some "f")), .lookUp 2 true 0, .arrive (.ws (some "ff") none), .redeem 3 6,
    .connect 3 1]

/-- The request that was given the ticket, and the one that has redeemed it. -/
def ticketCall : WsCall where
  request := .wsTicket (some "Bearer f") none
  stage := .issued "ff" ⟨1, "ab12"⟩ (5 + ticketTtl none)

def socketCall : WsCall where
  request := .ws (some "ff") none
  stage := .accepted ⟨1, "ab12"⟩ (some 6) (some 1)

def offer : SignalingLabel String := .hub (.receive ⟨0, "ab12", 1⟩ (some ⟨"ab12", "offer"⟩))

theorem deletion_run : ∃ s s' t, sampleMachine.Reachable s ∧
    sampleMachine.step s deletion = some s' ∧ s.creds.Stored id "f" ∧
    ¬ s'.creds.Stored id "f" ∧ (sampleMachine.startingAt s').Reachable t ∧
    s'.calls.length = 2 ∧ s'.creds.db.devices.length = 0 ∧
    t.calls[1]? = some ticketCall ∧ t.calls[3]? = some socketCall ∧
    s'.relayed offer = [⟨⟨0, "ab12", 1⟩, ⟨"ab12", "offer"⟩⟩] := by
  obtain ⟨s, run, stored, next⟩ := Machine.exists_reachableBy sampleMachine Machine.Always
    (s := fresh) ⟨0, rfl⟩ deviceOnline
    (fun s => s.creds.Stored id "f" ∧ (sampleMachine.step s deletion).any (fun s' =>
      decide (¬ s'.creds.Stored id "f" ∧ s'.calls.length = 2 ∧ s'.creds.db.devices.length = 0 ∧
        s'.relayed offer = [⟨⟨0, "ab12", 1⟩, ⟨"ab12", "offer"⟩⟩]) &&
      ((sampleMachine.startingAt s').exec Machine.Always s' afterwards).any fun t => decide
        (t.calls[1]? = some ticketCall ∧ t.calls[3]? = some socketCall)) = true)
    (by decide +kernel)
  obtain ⟨s', step, next⟩ := (Option.any_eq_true _ _).mp next
  obtain ⟨here, rest⟩ := Bool.and_eq_true_iff.mp next
  obtain ⟨gone, calls, devices, relayed⟩ := of_decide_eq_true here
  obtain ⟨t, ends, there⟩ := (Option.any_eq_true _ _).mp rest
  obtain ⟨issued, accepted⟩ := of_decide_eq_true there
  refine ⟨s, s', t, run, step, stored, gone, ?_, calls, devices, issued, accepted, relayed⟩
  exact Machine.exec_reachableBy (.start rfl) (fun _ _ _ met => met) ends

theorem revocation_lasts_deletion : ∃ s s' t, sampleMachine.Reachable s ∧
    sampleMachine.step s deletion = some s' ∧ (sampleMachine.startingAt s').Reachable t ∧
    t.calls[3]? = some socketCall ∧ t.creds.resolve id "f" 0 = none ∧ t.FoundBefore s' "f" ∧
    t.TicketsOnce ∧ s'.hub = s.hub := by
  obtain ⟨s, s', t, run, step, stored, gone, rest, -, -, -, opened, -⟩ := deletion_run
  obtain ⟨refused, before, once, hub, -⟩ :=
    revocation_lasts (l := deletion) (TokenHistory.sampleToken_distinct _) run step stored gone rest
  exact ⟨s, s', t, run, step, rest, opened, (refused 0).2, before, once, hub⟩

/-- A device is deleted. The ticket that was issued for its token opens a socket all the same, and
the socket that it had receives a frame. -/
theorem revocation_lags : ∃ s s' t c c', sampleMachine.Reachable s ∧
    sampleMachine.step s deletion = some s' ∧ s.creds.Stored id "f" ∧
    ¬ s'.creds.Stored id "f" ∧ (sampleMachine.startingAt s').Reachable t ∧
    (s'.calls[3]? = none ∧ t.calls[3]? = some c ∧
      c.redemption = some ("ff", ⟨1, "ab12"⟩, some 6) ∧
      c' ∈ t.calls ∧ c'.request.bearer = some "f" ∧
      ∃ expires, c'.stage = .issued "ff" ⟨1, "ab12"⟩ expires) ∧
    (∀ d ∈ s'.creds.db.devices, d.deviceId ≠ "ab12") ∧
    s'.relayed offer = [⟨⟨0, "ab12", 1⟩, ⟨"ab12", "offer"⟩⟩] := by
  obtain ⟨s, s', t, run, step, stored, gone, rest, calls, devices, issued, opened, relayed⟩ :=
    deletion_run
  refine ⟨s, s', t, socketCall, ticketCall, run, step, stored, gone, rest,
    ⟨?_, opened, rfl, List.mem_of_getElem? issued, by decide, _, rfl⟩, ?_, relayed⟩
  · exact List.getElem?_eq_none (calls ▸ by decide)
  · intro d listed
    rw [List.length_eq_zero_iff.mp devices] at listed
    exact absurd listed List.not_mem_nil

end SignalingServer
end ReachMyDevice
