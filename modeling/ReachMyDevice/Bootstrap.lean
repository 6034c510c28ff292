import ReachMyDevice.UserRegistration

/-!
# Who can create the first account

A record tells of each account that was created whether its request presented
the token, whether there was no account before, and whether sign-up was open at
some moment of the request.
-/
namespace ReachMyDevice
open Machines

theorem or_eq_zero_iff {x y : UInt8} : x ||| y = 0 ↔ x = 0 ∧ y = 0 := by
  simp only [← UInt8.toBitVec_inj, UInt8.toBitVec_or, UInt8.toBitVec_zero]
  exact BitVec.or_eq_zero_iff

theorem xor_eq_zero_iff {x y : UInt8} : x ^^^ y = 0 ↔ x = y := by
  simp only [← UInt8.toBitVec_inj, UInt8.toBitVec_xor, UInt8.toBitVec_zero]
  exact BitVec.xor_eq_zero_iff

theorem fold_diff {a b : Bytes} (same : a.length = b.length) (diff : UInt8) :
    (a.zip b).foldl (fun diff xy => diff ||| (xy.1 ^^^ xy.2)) diff = 0 ↔ diff = 0 ∧ a = b := by
  induction a generalizing b diff with
  | nil =>
      obtain rfl := List.eq_nil_of_length_eq_zero same.symm
      simp
  | cons x a ih =>
      cases b with
      | nil => cases same
      | cons y b =>
          rw [List.zip_cons_cons, List.foldl_cons, ih (Nat.succ.inj same), or_eq_zero_iff,
            xor_eq_zero_iff, List.cons.injEq, and_assoc]

/-- Only the very bytes are equal. -/
theorem RegisterUser.ctEq_iff {a b : Bytes} : ctEq a b = true ↔ a = b := by
  unfold ctEq
  split
  next other =>
    refine iff_of_false Bool.false_ne_true ?_
    rintro rfl
    exact other rfl
  next same =>
    rw [beq_iff_eq, fold_diff (not_not.mp same)]
    exact and_iff_right rfl

theorem parseBool_boolStr (b : Bool) : parseBool (boolStr b) = b := by
  cases b <;> rfl

/-- The token that is configured, to the byte. -/
theorem RegisterUser.presents_iff {config : RegistrationConfig} {body : RegisterUser} :
    body.presents config = true ↔ ∃ expected t, config.bootstrapToken = some expected ∧
      body.bootstrap = some t ∧ utf8 t = utf8 expected := by
  rw [presents, Option.any_eq_true]
  constructor
  · rintro ⟨expected, configured, same⟩
    cases given : body.bootstrap with
    | none => simp [given] at same
    | some t => exact ⟨expected, t, configured, rfl, ctEq_iff.mp (by simpa [given] using same)⟩
  · rintro ⟨expected, t, configured, given, same⟩
    exact ⟨expected, configured, by simp [given, ctEq_iff.mpr same]⟩

/-- Without its token a request may create a user where sign-up is open, and the first one where
no token is configured. -/
theorem RegisterUser.gate_unvouched {config : RegistrationConfig} {body : RegisterUser}
    (unvouched : body.presents config = false) (open_ : Bool) :
    body.gate config open_ = (open_, config.bootstrapToken.isNone) := by
  unfold gate
  cases config.bootstrapToken with
  | none => rfl
  | some expected => simp [unvouched]

/-- An account that was created. -/
structure Creation where
  /-- The request presented the token that is configured. -/
  vouched : Bool
  first : Bool
  /-- Sign-up was open at some moment since the request began. -/
  seenOpen : Bool
  deriving DecidableEq

structure Signups where
  /-- Of each request, whether sign-up has been open since it began. -/
  seenOpen : Nat → Bool
  created : List Creation

namespace RegisterServer
variable (config : RegistrationConfig)

def noted (s : RegisterServer) (a : RegisterLabel) (s' : RegisterServer) (r : Signups) : Signups :=
  match a with
  | .register _ =>
    { r with seenOpen := Function.update r.seenOpen s.calls.length (s.registrationOpen config) }
  | .setRegistration enabled => { r with seenOpen := fun i => r.seenOpen i || enabled }
  | .insert i _ _ _ =>
    if s.users.length < s'.users.length then
      { r with created := r.created ++ [{
          vouched := s.calls[i]?.any (·.body.presents config)
          first := s.users.isEmpty
          seenOpen := r.seenOpen i }] }
    else r
  | .read _ _ | .abort _ => r

def recorded : Machine (RegisterServer × Signups) RegisterLabel :=
  (machine config).recording (fun _ => { seenOpen := fun _ => false, created := [] })
    (noted config)

/-- The setting is closed when a step is taken. -/
def Closed (t : RegisterServer × Signups) (_ : RegisterLabel) : Prop :=
  t.1.registrationOpen config = false

instance (t : RegisterServer × Signups) (a : RegisterLabel) : Decidable (Closed config t a) :=
  inferInstanceAs (Decidable (_ = _))

variable {config} {s s' : RegisterServer} {r : Signups}

variable (s) in

/-- What the statement does: the name is taken, or nothing is inserted, or a row is. -/
theorem createUserIfAllowed_cases (username hash : String) (open_ allowBootstrap : Bool)
    (now : Int64) :
    s.createUserIfAllowed username hash open_ allowBootstrap now = none ∨
      s.createUserIfAllowed username hash open_ allowBootstrap now = some (false, s) ∨
      ∃ row, s.createUserIfAllowed username hash open_ allowBootstrap now =
          some (true, { s with users := s.users ++ [row] }) ∧
        (s.users = [] ∧ allowBootstrap = true ∨ open_ = true) := by
  unfold createUserIfAllowed
  split
  · rename_i may
    split
    · exact .inl rfl
    · refine .inr (.inr ⟨_, rfl, ?_⟩)
      rw [Bool.or_eq_true, Bool.and_eq_true, List.isEmpty_iff] at may
      exact may
  · exact .inr (.inl rfl)

/-- What the insertion does: a user is added where the request may do that, or none is. -/
theorem insert_cases {i : Nat} {hash : Option String} {ok : Bool} {now : Int64}
    (step : s.step config (.insert i hash ok now) = some s') :
    ∃ c open_ allowBootstrap result, s.calls[i]? = some c ∧
      c.stage = .inserting open_ allowBootstrap ∧
      s'.calls = s.calls.set i { c with stage := .returned result } ∧ s'.setting = s.setting ∧
      (s'.users = s.users ∨
        (∃ row, s'.users = s.users ++ [row]) ∧
          (s.users = [] ∧ allowBootstrap = true ∨ open_ = true)) := by
  obtain ⟨c, found, step⟩ := Option.bind_eq_some_iff.mp step
  split at step
  · rename_i open_ allowBootstrap stage
    refine ⟨c, open_, allowBootstrap, ?_⟩
    cases hash with
    | none =>
        obtain rfl := Option.some.inj step
        exact ⟨_, found, stage, rfl, rfl, .inl rfl⟩
    | some hash =>
        cases ok with
        | false =>
            obtain rfl := Option.some.inj step
            exact ⟨_, found, stage, rfl, rfl, .inl rfl⟩
        | true =>
            simp only [if_true] at step
            rcases s.createUserIfAllowed_cases c.body.username hash open_ allowBootstrap now with
              taken | closed | ⟨row, inserts, may⟩
            · rw [taken] at step
              obtain rfl := Option.some.inj step
              exact ⟨_, found, stage, rfl, rfl, .inl rfl⟩
            · rw [closed] at step
              obtain rfl := Option.some.inj step
              exact ⟨_, found, stage, rfl, rfl, .inl rfl⟩
            · rw [inserts] at step
              obtain rfl := Option.some.inj step
              exact ⟨_, found, stage, rfl, rfl, .inr ⟨⟨row, rfl⟩, may⟩⟩
  · cases step

/-- What a run keeps: a request goes on to insert only as it may, and what was created was. -/
structure Kept (config : RegistrationConfig) (s : RegisterServer) (r : Signups) : Prop where
  seen : s.registrationOpen config = true → ∀ i < s.calls.length, r.seenOpen i = true
  gated : ∀ i c open_ allowBootstrap, s.calls[i]? = some c →
    c.stage = .inserting open_ allowBootstrap → c.body.presents config = false →
      (open_ = true → r.seenOpen i = true) ∧
        (allowBootstrap = true → config.bootstrapToken = none)
  sound : ∀ e ∈ r.created, e.vouched = false → e.seenOpen = false →
    e.first = true ∧ config.bootstrapToken = none
  firsts : r.created.countP (·.first) + s.users.isEmpty.toNat ≤ 1

theorem kept_start (users : List UserRow) (setting : Option String) :
    Kept config { users, setting, calls := [] } { seenOpen := fun _ => false, created := [] } where
  seen _ _ inside := absurd inside (Nat.not_lt_zero _)
  gated _ _ _ _ found := nomatch found
  sound _ member := nomatch member
  firsts := by
    rw [List.countP_nil, Nat.zero_add]
    exact Bool.toNat_le _

/-- A request goes to another stage, and nothing else changes. -/
theorem Kept.setStage (h : Kept config s r) {i : Nat} {c : RegisterCall}
    (found : s.calls[i]? = some c) {stage : RegisterStage}
    (gated : ∀ open_ allowBootstrap, stage = .inserting open_ allowBootstrap →
      c.body.presents config = false → (open_ = true → r.seenOpen i = true) ∧
        (allowBootstrap = true → config.bootstrapToken = none)) :
    Kept config (s.setStage i c stage) r where
  seen opened j inside := h.seen opened j (by simpa [RegisterServer.setStage] using inside)
  gated j c' open_ allowBootstrap found' stage' unvouched := by
    obtain ⟨rfl, rfl⟩ | ⟨-, before⟩ := Slots.getElem?_set_cases found'
    · exact gated open_ allowBootstrap stage' unvouched
    · exact h.gated j c' open_ allowBootstrap before stage' unvouched
  sound := h.sound
  firsts := h.firsts

theorem Kept.register (h : Kept config s r) (c : RegisterCall)
    (waits : ∀ open_ allowBootstrap, c.stage ≠ .inserting open_ allowBootstrap) :
    Kept config (s.addCall c) { r with
      seenOpen := Function.update r.seenOpen s.calls.length (s.registrationOpen config) } where
  seen opened i inside := by
    have opened : s.registrationOpen config = true := opened
    by_cases new : i = s.calls.length
    · obtain rfl := new
      simp only [Function.update_self, opened]
    · simp only [Function.update_of_ne new]
      refine h.seen opened i ?_
      rw [addCall, List.length_append, List.length_singleton] at inside
      omega
  gated i c' open_ allowBootstrap found stage unvouched := by
    obtain before | ⟨-, rfl⟩ := Slots.getElem?_concat_cases found
    · have old : i ≠ s.calls.length := by
        rintro rfl
        simp at before
      simp only [Function.update_of_ne old]
      exact h.gated i c' open_ allowBootstrap before stage unvouched
    · exact absurd stage (waits open_ allowBootstrap)
  sound := h.sound
  firsts := h.firsts

theorem Kept.setRegistration (h : Kept config s r) (enabled : Bool) :
    Kept config { s with setting := some (boolStr enabled) }
      { r with seenOpen := fun i => r.seenOpen i || enabled } where
  seen opened i inside := by
    have enabled : enabled = true := by
      rw [← parseBool_boolStr enabled]
      exact opened
    simp only [enabled, Bool.or_true]
  gated i c open_ allowBootstrap found stage unvouched := by
    obtain ⟨seen, none_⟩ := h.gated i c open_ allowBootstrap found stage unvouched
    exact ⟨fun opens => by simp only [seen opens, Bool.true_or], none_⟩
  sound := h.sound
  firsts := h.firsts

/-- A row is inserted for a request that was found to be allowed that. -/
theorem Kept.inserted (h : Kept config s r) {i : Nat} {c : RegisterCall}
    {open_ allowBootstrap : Bool} {result : Except AppError Unit} {row : UserRow}
    (found : s.calls[i]? = some c) (stage : c.stage = .inserting open_ allowBootstrap)
    (moved : Kept config (s.setStage i c (.returned result)) r)
    (calls : s'.calls = s.calls.set i { c with stage := .returned result })
    (setting : s'.setting = s.setting) (added : s'.users = s.users ++ [row])
    (may : s.users = [] ∧ allowBootstrap = true ∨ open_ = true) :
    Kept config s' { r with created := r.created ++ [{
      vouched := s.calls[i]?.any (·.body.presents config)
      first := s.users.isEmpty
      seenOpen := r.seenOpen i }] } := by
  have opened : s'.registrationOpen config = s.registrationOpen config := by
    rw [registrationOpen, setting, registrationOpen]
  constructor
  · rw [opened, calls]
    exact moved.seen
  · rw [calls]
    exact moved.gated
  · refine Slots.forall_mem_concat h.sound fun unvouched unseen => ?_
    simp only [found, Option.any_some] at unvouched
    obtain ⟨seen, none_⟩ := h.gated i c open_ allowBootstrap found stage unvouched
    rcases may with ⟨empty, first⟩ | opens
    · exact ⟨by rw [empty]; rfl, none_ first⟩
    · have unseen : r.seenOpen i = false := unseen
      rw [seen opens] at unseen
      cases unseen
  · have before := h.firsts
    have some_ : s'.users.isEmpty = false := by simp [added]
    rw [Slots.countP_concat, some_]
    exact before

theorem Kept.step (h : Kept config s r) {a : RegisterLabel} (step : s.step config a = some s') :
    Kept config s' (noted config s a s' r) := by
  cases a with
  | register body =>
      simp only [RegisterServer.step] at step
      split at step <;> obtain rfl := Option.some.inj step <;>
        exact h.register _ (fun _ _ impossible => nomatch impossible)
  | read i ok =>
      obtain ⟨c, found, step⟩ := Option.bind_eq_some_iff.mp step
      split at step
      next =>
        obtain rfl := Option.some.inj step
        refine h.setStage found fun open_ allowBootstrap stage unvouched => ?_
        have inside := (List.getElem?_eq_some_iff.mp found).1
        cases ok with
        | false => cases stage
        | true =>
            simp only [if_true, RegisterServer.gated,
              RegisterUser.gate_unvouched unvouched] at stage
            split at stage
            · cases stage
            · obtain ⟨rfl, rfl⟩ := RegisterStage.inserting.inj stage
              exact ⟨fun opens => h.seen opens i inside, Option.isNone_iff_eq_none.mp⟩
      next => cases step
  | insert i hash ok now =>
      obtain ⟨c, open_, allowBootstrap, result, found, stage, calls, setting, users⟩ :=
        insert_cases step
      have moved : Kept config (s.setStage i c (.returned result)) r :=
        h.setStage found fun _ _ impossible => nomatch impossible
      obtain same | ⟨⟨row, added⟩, may⟩ := users
      · have here : s' = s.setStage i c (.returned result) := by
          obtain ⟨users', setting', calls'⟩ := s'
          obtain rfl : users' = _ := same
          obtain rfl : setting' = _ := setting
          obtain rfl : calls' = _ := calls
          rfl
        have still : ¬ s.users.length < (s.setStage i c (.returned result)).users.length :=
          Nat.lt_irrefl _
        rw [here, noted, if_neg still]
        exact moved
      · have grows : s.users.length < s'.users.length := by simp [added]
        rw [noted, if_pos grows]
        exact h.inserted found stage moved calls setting added may
  | abort i =>
      obtain ⟨c, found, step⟩ := Option.bind_eq_some_iff.mp step
      split at step
      · obtain rfl := Option.some.inj step
        exact h.setStage found fun _ _ impossible => nomatch impossible
      · obtain rfl := Option.some.inj step
        exact h.setStage found fun _ _ impossible => nomatch impossible
      · cases step
      · cases step
  | setRegistration enabled =>
      obtain rfl := Option.some.inj step
      exact h.setRegistration enabled

theorem kept_of_reachable {t : RegisterServer × Signups} (run : (recorded config).Reachable t) :
    Kept config t.1 t.2 := by
  refine run.invariant (I := fun t => Kept config t.1 t.2) ?_ ?_
  · rintro t ⟨⟨users, setting, first⟩, start⟩
    rw [start, first]
    exact kept_start users setting
  · intro t a t' h step
    obtain ⟨step, noted⟩ := Machine.recording_step_iff.mp step
    rw [noted]
    exact h.step step

/-- While the setting is closed no request sees it open. -/
theorem unseen_of_closed {t : RegisterServer × Signups}
    (run : (recorded config).ReachableBy (Closed config) t) :
    (t.1.registrationOpen config = false → ∀ i, t.2.seenOpen i = false) ∧
      ∀ e ∈ t.2.created, e.seenOpen = false := by
  refine run.invariant (I := fun t => (t.1.registrationOpen config = false →
    ∀ i, t.2.seenOpen i = false) ∧ ∀ e ∈ t.2.created, e.seenOpen = false) ?_ ?_
  · rintro t ⟨-, start⟩
    rw [start]
    exact ⟨fun _ _ => rfl, fun _ member => nomatch member⟩
  · intro t a t' h closed step
    obtain ⟨unseen, created⟩ := h
    have unseen := unseen closed
    obtain ⟨step, noted⟩ := Machine.recording_step_iff.mp step
    rw [noted]
    cases a with
    | register body =>
        refine ⟨fun _ i => ?_, created⟩
        by_cases new : i = t.1.calls.length
        · obtain rfl := new
          exact (Function.update_self ..).trans closed
        · exact (Function.update_of_ne new ..).trans (unseen i)
    | read i ok | abort i => exact ⟨fun _ => unseen, created⟩
    | insert i hash ok now =>
        simp only [RegisterServer.noted]
        split
        next =>
          refine ⟨fun _ => unseen, fun e member => ?_⟩
          obtain before | new := List.mem_append.mp member
          · exact created e before
          · obtain rfl := List.mem_singleton.mp new
            exact unseen i
        next => exact ⟨fun _ => unseen, created⟩
    | setRegistration enabled =>
        refine ⟨fun closed' i => ?_, created⟩
        have same : t'.1.registrationOpen config = enabled := by
          rw [← Option.some.inj step]
          exact parseBool_boolStr enabled
        simp only [RegisterServer.noted, unseen i, ← same, closed', Bool.or_false]

/-- An account that is created without the token, by a request since whose beginning sign-up was
closed, is the first one, and no token is configured; while sign-up stays closed one account at
most is created so, and none where a token is configured. -/
theorem bootstrap_safe (config : RegistrationConfig) :
    (∀ t, (recorded config).Reachable t →
      (∀ e ∈ t.2.created, e.vouched = false → e.seenOpen = false →
        e.first = true ∧ config.bootstrapToken = none) ∧
      t.2.created.countP (·.first) ≤ 1) ∧
    ∀ t, (recorded config).ReachableBy (Closed config) t →
      t.2.created.countP (fun e => !e.vouched) ≤ 1 ∧
        (config.bootstrapToken ≠ none → ∀ e ∈ t.2.created, e.vouched = true) := by
  refine ⟨fun t run => ?_, fun t run => ?_⟩
  · have kept := kept_of_reachable run
    exact ⟨kept.sound, Nat.le_of_add_right_le kept.firsts⟩
  · have kept := kept_of_reachable (run.mono fun _ _ _ => trivial)
    have unseen := (unseen_of_closed run).2
    refine ⟨Nat.le_trans (List.countP_mono_left fun e member unvouched => ?_)
      (Nat.le_of_add_right_le kept.firsts), fun configured e member => ?_⟩
    · exact (kept.sound e member (by simpa using unvouched) (unseen e member)).1
    · by_contra unvouched
      rw [Bool.not_eq_true] at unvouched
      exact configured (kept.sound e member unvouched (unseen e member)).2

def sampleUser (username : String) : RegisterUser where
  username := username
  password := "correct horse"

/-- Two requests that both find no user: one of them creates the first account. -/
theorem bootstrap_safe_race : ∃ t, (recorded ⟨false, none⟩).ReachableBy (Closed ⟨false, none⟩) t ∧
    t.2.created = [⟨false, true, false⟩] ∧ t.2.created.countP (fun e => !e.vouched) ≤ 1 ∧
      t.2.created.countP (·.first) ≤ 1 := by
  obtain ⟨t, run, created⟩ := Machine.exists_reachableBy (recorded ⟨false, none⟩)
    (Closed ⟨false, none⟩) (s := ({ users := [], setting := some "false", calls := [] },
      { seenOpen := fun _ => false, created := [] })) ⟨⟨[], some "false", rfl⟩, rfl⟩
    [.register (sampleUser "alice"), .register (sampleUser "bob"), .read 0 true, .read 1 true,
      .insert 1 (some "h1") true 0, .insert 0 (some "h0") true 0]
    (fun t => t.2.created = [⟨false, true, false⟩]) (by decide +kernel)
  obtain ⟨every, closed⟩ := bootstrap_safe ⟨false, none⟩
  exact ⟨t, run, created, (closed t run).1, (every t (run.mono fun _ _ _ => trivial)).2⟩

end RegisterServer
end ReachMyDevice
